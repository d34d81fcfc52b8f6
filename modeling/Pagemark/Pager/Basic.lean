/-
  Pagemark.Pager.Basic — paging parameters read from requests and written into links.

  A pager knows the codec, the names of the three paging parameters, and the page size that is
  used without one and at most. Reading goes in the order size, sorting, token, so that the
  first of several faults decides; a token that cannot be read is an error and never the first
  page. Writing replaces the paging parameters of a target and keeps all others in their order.
-/

import Pagemark.Codec.Stack
import Pagemark.Pager.Error
import Pagemark.Target

namespace Pagemark

open Text

/-- The names of the paging parameters. -/
structure ParameterNames where
  page : String
  size : String
  sort : String
  deriving DecidableEq, Repr

def ParameterNames.toList (n : ParameterNames) : List String := [n.page, n.size, n.sort]

structure Pager where
  codec : Codec
  defaultSize : UInt32
  maxSize : UInt32
  names : ParameterNames

namespace Pager

def standardSize : UInt32 := 20

def standardMaxSize : UInt32 := 100

def standardNames : ParameterNames := ⟨"page", "size", "sort"⟩

/-- A pager with the standard sizes and names. -/
def ofCodec (codec : Codec) : Pager := ⟨codec, standardSize, standardMaxSize, standardNames⟩

/-- Page numbers under a seal without a key. -/
def standard : Pager := ofCodec (Codec.Stack.standard none).codec

/-- Sets the size used without a size parameter, at least one and at most the greatest size. -/
def withDefaultSize (p : Pager) (size : UInt32) : Pager := { p with defaultSize := max 1 (min size p.maxSize) }

/-- Sets the greatest size, at least one; the default size is lowered to it. -/
def withMaxSize (p : Pager) (size : UInt32) : Pager :=
  { p with maxSize := max 1 size, defaultSize := min p.defaultSize (max 1 size) }

def withNames (p : Pager) (names : ParameterNames) : Pager := { p with names }

/-- The pager on one line, for diagnostics. -/
def describe (p : Pager) : String :=
  "PageRequestBinder \x7b default_page_size: " ++ decimal p.defaultSize.toNat
    ++ ", max_page_size: " ++ decimal p.maxSize.toNat
    ++ ", page_parameter: " ++ quoted p.names.page
    ++ ", size_parameter: " ++ quoted p.names.size
    ++ ", sort_parameter: " ++ quoted p.names.sort ++ ", .. \x7d"

/-! ## Reading -/

/-- What a token for the target is bound to. -/
def identity (p : Pager) (t : Target) : Identity := t.identity p.names.toList

/-- The greatest integer that a size parameter may spell; what lies above counts as too many. -/
def sizeLimit : Nat := UInt64.size / 2 - 1

/-- The page size of a size parameter: any positive integer, lowered to the greatest size. -/
def readSize (p : Pager) : Option String → Except SizeError UInt32
  | none => .ok p.defaultSize
  | some raw =>
    match readInt 10 sizeLimit raw.toList with
    | .ok value => if value ≤ 0 then .error (.notPositive value) else .ok (.ofNat (min value.toNat p.maxSize.toNat))
    | .error .tooLarge => .ok p.maxSize
    | .error .tooSmall => .error (.notPositive (-(sizeLimit + 1)))
    | .error cause => .error (.notANumber raw cause)

/-- The bookmark that a target carries, its token still closed. -/
def bookmark (p : Pager) (t : Target) : Except PageError Bookmark :=
  match p.readSize (t.first p.names.size) with
  | .error cause => .error (.size p.names.size cause)
  | .ok size =>
    match Sorting.parse (t.values p.names.sort) with
    | .error cause => .error (.sorting p.names.sort cause)
    | .ok sorting => .ok ⟨t.first p.names.page, size, sorting⟩

def source : String := "cursor_pagination::binder"

def resolvedEvent (identity : Identity) (page : Page) : Log.Event :=
  ⟨.debug, source, "Resolved paged request",
    [("path", .text identity.path), ("page_index", .number page.index.toNat), ("page_size", .number page.size.toNat)]⟩

/-- The page that a target asks for. -/
def resolve (p : Pager) (t : Target) : Log.Traced (Except PageError Page) :=
  match p.bookmark t with
  | .error e => .quiet (.error e)
  | .ok bookmark =>
    let decoded := p.codec.decode bookmark (p.identity t)
    match decoded.value with
    | .error cause => ⟨.error (.token p.names.page cause), decoded.events⟩
    | .ok page => ⟨.ok page, decoded.events ++ [resolvedEvent (p.identity t) page]⟩

/-! ## Writing -/

/-- The pairs that a bookmark is written as. -/
def pairs (p : Pager) (b : Bookmark) : List (String × String) :=
  (b.token.map fun token => (p.names.page, token)).toList
    ++ (p.names.size, decimal b.size.toNat) :: (Sorting.values b.sorting).map fun value => (p.names.sort, value)

/-- The target with the page written into it. -/
def link (p : Pager) (page : Page) (t : Target) : Target :=
  let base := t.without p.names.toList
  { base with query := base.query ++ p.pairs (p.codec.encode page (p.identity base)) }

/-- The URL with the page written into it; all but the query stays. -/
def linkUrl (p : Pager) (page : Page) (url : Url) : Url := url.withPairs (p.link page (Target.ofUrl url)).query

end Pager

end Pagemark
