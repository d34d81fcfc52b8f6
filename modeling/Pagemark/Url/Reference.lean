/-
  Pagemark.Url.Reference — reading URLs, alone or against a base.

  Controls and spaces at both ends do not count, nor do tabs and line breaks anywhere. A text
  with a scheme is a URL of its own, except that one of a web scheme without two slashes
  continues a base of the same scheme. Without a scheme it is resolved against the base: two
  slashes replace the authority, one slash the path, a question mark the query, a number sign
  the fragment, and anything else the last segment of the path.

  `parse?` takes the base as an option, so that `Url.parse` and `Url.join` are one reading.
-/

import Pagemark.Text.Blank
import Pagemark.Url.FilePath
import Pagemark.Url.Host

namespace Pagemark.Url

open Text

/-! ## Parts of a text -/

def isEdge (c : Char) : Bool := c.toNat ≤ 0x20

/-- The text without controls and spaces at its ends. -/
def trimmed (cs : List Char) : List Char := strip isEdge cs

/-- The characters that count. -/
def cleaned (cs : List Char) : List Char := counted (trimmed cs)

/-- A scheme in lower case and what follows its colon. -/
def schemeTail? : List Char → Option (List Char × List Char)
  | [] => none
  | c :: cs =>
    if c == ':' then some ([], cs)
    else if c.isAlphanum || c == '+' || c == '-' || c == '.' then
      (schemeTail? cs).map fun (scheme, rest) => (c.toLower :: scheme, rest)
    else none

/-- The scheme of a text that begins with one; the first character of a scheme is a letter. -/
def scheme? (cs : List Char) : Option (String × List Char) :=
  match cs with
  | c :: _ => if c.isAlpha then (schemeTail? cs).map fun (scheme, rest) => (.ofList scheme, rest) else none
  | [] => none

def isTailMark (c : Char) : Bool := c == '?' || c == '#'

/-- What comes before the query and the fragment. -/
def beforeTail (cs : List Char) : List Char := cs.takeWhile (!isTailMark ·)

def tailOf (cs : List Char) : List Char := cs.dropWhile (!isTailMark ·)

/-- Query and fragment of what `tailOf` leaves. -/
def readTail (kind : Kind) : List Char → Option String × Option String
  | '?' :: cs =>
    let (query, fragment) := cut '#' cs
    (some (escaped (queryKeeps kind) query), fragment.map (escaped fragmentKeeps))
  | '#' :: cs => (none, some (escaped fragmentKeeps cs))
  | _ => (none, none)

/-- The URL with the path given and the query and fragment of a text. -/
def finish (scheme : String) (authority : Option Authority) (path : String) (cs : List Char) : Url :=
  let (query, fragment) := readTail (.ofScheme scheme) (tailOf cs)
  ⟨scheme, authority, path, query, fragment⟩

/-! ## Authority -/

/-- User name and password of what stands before the last at sign. -/
def readCredentials (cs : List Char) : String × Option String :=
  match cut ':' cs with
  | (name, none) => (escaped credentialKeeps name, none)
  | (name, some []) => (escaped credentialKeeps name, none)
  | (name, some password) => (escaped credentialKeeps name, some (escaped credentialKeeps password))

/-- What stands before the last `c`, and what follows it. -/
def cutLast (c : Char) (cs : List Char) : Option (List Char × List Char) :=
  match cut c cs.reverse with
  | (_, none) => none
  | (behind, some before) => some (before.reverse, behind.reverse)

/-- The host and what follows it: it ends at a colon outside brackets or at the end of the
authority. -/
def cutHost (kind : Kind) (inside : Bool) : List Char → List Char × List Char
  | [] => ([], [])
  | c :: cs =>
    if (c == ':' && !inside) || kind.isSlash c || isTailMark c then ([], c :: cs)
    else
      let inside := if c == '[' then true else if c == ']' then false else inside
      ((c :: (cutHost kind inside cs).1), (cutHost kind inside cs).2)

/-- A port of at most 65535, which ends at a slash of either kind or at the tail. -/
def readPort : Option Nat → List Char → Except ParseError (Option Nat × List Char)
  | value, [] => .ok (value, [])
  | value, c :: cs =>
    match digit? 10 c with
    | some d =>
      let value := value.getD 0 * 10 + d
      if value ≤ 65535 then readPort (some value) cs else .error .invalidPort
    | none => if c == '/' || c == '\\' || isTailMark c then .ok (value, c :: cs) else .error .invalidPort

/-- Credentials and what follows them in an authority and its rest. -/
def readUser (kind : Kind) (cs : List Char) : Except ParseError ((String × Option String) × List Char) :=
  let inAuthority (c : Char) : Bool := !(kind.isSlash c || isTailMark c)
  match cutLast '@' (cs.takeWhile inAuthority) with
  | none => .ok (("", none), cs)
  | some ([], []) => if (cs.dropWhile inAuthority).isEmpty then .ok (("", none), []) else .error .emptyHost
  | some (user, host) => .ok (readCredentials user, host ++ cs.dropWhile inAuthority)

variable [Idna]

/-- The authority that follows two slashes, and the rest. -/
def readAuthority (scheme : String) (cs : List Char) : Except ParseError (Authority × List Char) := do
  let kind := Kind.ofScheme scheme
  let ((username, password), cs) ← readUser kind cs
  let (hostText, rest) := cutHost kind false cs
  if kind = .web && hostText.isEmpty then throw .emptyHost
  let host ← if kind = .other then Host.parseOpaque hostText else Host.parse hostText
  if host = .empty && rest.head? == some ':' then throw .emptyHost
  let (port, rest) ← match rest with
    | ':' :: digits => readPort none digits
    | _ => .ok (none, rest)
  let port := if port = defaultPort scheme then none else port
  let authority : Authority := ⟨username, password, host, port⟩
  if host = .empty && authority.hasCredentials then throw .emptyHost
  return (authority, rest)

/-- The URL whose authority and path follow two slashes. -/
def withAuthority (scheme : String) (cs : List Char) : Except ParseError Url := do
  let (authority, rest) ← readAuthority scheme cs
  return finish scheme (some authority) (Path.parse (.ofScheme scheme) (beforeTail rest)) rest

/-! ## The three kinds of URL -/

/-- Resolves against a base that is neither opaque nor a `file` URL. -/
def continueBase (base : Url) (cs : List Char) : Except ParseError Url :=
  let kind := base.kind
  let isSlash (c : Char) : Bool := c == '/' || c == '\\'
  match cs with
  | [] => .ok { base with fragment := none }
  | '?' :: _ => .ok (finish base.scheme base.authority base.path cs)
  | '#' :: fragment => .ok { base with fragment := some (escaped fragmentKeeps fragment) }
  | c :: rest =>
    if isSlash c then
      match rest with
      | d :: afterTwo =>
        if isSlash d then
          withAuthority base.scheme (if c == '/' && d == '/' then afterTwo else rest.dropWhile isSlash)
        else .ok (finish base.scheme base.authority (Path.resolve kind [] (beforeTail rest)) rest)
      | [] => .ok (finish base.scheme base.authority "/" [])
    else
      .ok (finish base.scheme base.authority (Path.resolve kind (Path.directory base.path) (beforeTail cs)) cs)

/-- Neither a host nor credentials, but a place for them. -/
def noAuthority : Authority := ⟨"", none, .empty, none⟩

/-- A `file` URL of its host, its path, and a text that ends in its query and fragment. -/
def fileUrl (host : Host) (path : String) (cs : List Char) : Url :=
  finish "file" (some { noAuthority with host }) path (counted cs)

/-- The host of a `file` URL; a drive letter is part of the path, and `localhost` is no host. -/
def readFileHost (cs : List Char) : Except ParseError (Host × List Char) :=
  let inHost (c : Char) : Bool := !(Kind.file.isSlash c || isTailMark c)
  let text := counted (cs.takeWhile inHost)
  let rest := cs.dropWhile inHost
  if Path.isDriveLetter text then .ok (.empty, cs)
  else if text.isEmpty then .ok (.empty, rest)
  else
    match Host.parse text with
    | .error e => .error e
    | .ok (.name "localhost") => .ok (.empty, rest)
    | .ok host => .ok (host, rest)

/-- A `file` URL of the text behind two slashes. A drive letter takes the place of the host; but
without a host the slash in front of it is a segment, so that it is not the first one. -/
def readFileAuthority (cs : List Char) : Except ParseError Url := do
  let (host, rest) ← readFileHost cs
  let path := beforeTail rest
  if host = .empty then return fileUrl .empty (FilePath.resolve [] path) rest
  else
    let w := FilePath.walk [] (Path.afterSlash .file path)
    return fileUrl (if w.isDrive then .empty else host) (FilePath.print w.stack) rest

/-- Whether a drive letter begins the text and ends there or at a slash or the tail. -/
def beginsWithDrive (cs : List Char) : Bool :=
  match counted cs with
  | [a, b] => Path.isDriveLetter [a, b]
  | a :: b :: c :: _ => Path.isDriveLetter [a, b] && (Kind.file.isSlash c || isTailMark c)
  | _ => false

/-- A `file` URL of the text behind one slash: the drive of the base, or else its host, stays. -/
def readFileRoot (base : Option Url) (cs : List Char) : Url :=
  let path := beforeTail cs
  match base.filter fun _ => !beginsWithDrive cs with
  | none => fileUrl .empty (FilePath.resolve [] path) cs
  | some base =>
    match FilePath.drive? base.path with
    | some drive => fileUrl .empty (FilePath.resolve [drive] path) cs
    | none => fileUrl base.host (FilePath.resolve [] path) cs

/-- A `file` URL of a text that does not begin with a slash. -/
def readFileRelative (base : Option Url) (cs : List Char) : Url :=
  match base with
  | none => fileUrl .empty (FilePath.resolve [] (beforeTail cs)) cs
  | some base =>
    match counted cs with
    | [] => { base with fragment := none }
    | '?' :: _ => fileUrl base.host base.path cs
    | '#' :: fragment => { base with fragment := some (escaped fragmentKeeps fragment) }
    | _ =>
      if beginsWithDrive cs then fileUrl .empty (FilePath.resolve [] (beforeTail cs)) cs
      else fileUrl base.host (FilePath.join base.path (beforeTail cs)) cs

/-- A `file` URL of the text behind its scheme, or of a text against a `file` base. Tabs and
line breaks still stand in the text. -/
def readFile (base : Option Url) (cs : List Char) : Except ParseError Url :=
  match cs.dropWhile isIgnored with
  | [] => .ok (readFileRelative base [])
  | c :: rest =>
    if !Kind.file.isSlash c then .ok (readFileRelative base cs)
    else
      match rest.dropWhile isIgnored with
      | [] => .ok (readFileRoot base rest)
      | d :: behind => if Kind.file.isSlash d then readFileAuthority behind else .ok (readFileRoot base rest)

/-- A URL of a scheme that has no rules of its own. -/
def readOther (scheme : String) (cs : List Char) : Except ParseError Url :=
  match cs with
  | '/' :: '/' :: rest => withAuthority scheme rest
  | '/' :: _ => .ok (finish scheme none (Path.parse .other (beforeTail cs)) cs)
  | _ => .ok (finish scheme none (escaped isShown (beforeTail cs)) cs)

/-- Reads a trimmed text. -/
def readTrimmed (base : Option Url) (cs : List Char) : Except ParseError Url :=
  match scheme? (counted cs) with
  | some (scheme, rest) =>
    match Kind.ofScheme scheme with
    | .file => readFile (base.filter (·.kind == .file)) ((cut ':' cs).2.getD [])
    | .other => readOther scheme rest
    | .web =>
      let isSlash := Kind.web.isSlash
      let slashes := (rest.takeWhile isSlash).length
      match base.filter fun b => slashes < 2 && b.scheme == scheme with
      | some base => continueBase base rest
      | none => withAuthority scheme (rest.dropWhile isSlash)
  | none =>
    match base with
    | none => .error .noBase
    | some base =>
      match counted cs with
      | '#' :: fragment => .ok { base with fragment := some (escaped fragmentKeeps fragment) }
      | rest =>
        if base.isOpaque then .error .opaqueBase
        else if base.kind = .file then readFile (some base) cs
        else continueBase base rest

def parse? (base : Option Url) (s : String) : Except ParseError Url := readTrimmed base (trimmed s.toList)

/-- A text that is a URL on its own. -/
def parse (s : String) : Except ParseError Url := parse? none s

/-- A text read against a base. -/
def join (base : Url) (s : String) : Except ParseError Url := parse? (some base) s

end Pagemark.Url
