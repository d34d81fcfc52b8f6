/-
  Pagemark.Json.Documents — the JSON forms of pages, bookmarks, links, reports and settings.

  Each type has `json`, its value, and `ofJson?`, which reads a value back. Links and a report
  leave out what they do not have; a bookmark without a token and settings without a secret say
  so by a null.
-/

import Pagemark.Json.Record
import Pagemark.Pager.Admission
import Pagemark.Settings.Basic

namespace Pagemark

open Json

namespace Json.Value

def word16? (v : Value) : Option UInt16 := (v.nat? (UInt16.size - 1)).map .ofNat

def word32? (v : Value) : Option UInt32 := (v.nat? (UInt32.size - 1)).map .ofNat

def word64? (v : Value) : Option UInt64 := (v.nat? (UInt64.size - 1)).map .ofNat

/-- A member that is left out when it has no text. -/
def textMember (name : String) (s : Option String) : List (String × Value) :=
  match s with
  | some s => [(name, ofText s)]
  | none => []

end Json.Value

open Json.Value

/-! ## Sorting -/

namespace Direction

def json (d : Direction) : Value := ofText d.word

/-- A direction by its exact word. -/
def ofExactWord? (word : String) : Option Direction :=
  if word = "asc" then some .ascending else if word = "desc" then some .descending else none

/-- The word alone, or as the key of a null. -/
def ofJson? : Value → Option Direction
  | .text (some word) => ofExactWord? word
  | .object [(some word, .null)] => ofExactWord? word
  | _ => none

end Direction

namespace SortKey

def json (key : SortKey) : Value :=
  ofMembers [("property", ofText key.property), ("direction", key.direction.json)]

def ofJson? (v : Value) : Option SortKey := do
  match ← v.fields? [required "property", required "direction"] with
  | [some property, some direction] => return ⟨← property.text?, ← Direction.ofJson? direction⟩
  | _ => none

end SortKey

namespace Sorting

def json (s : Sorting) : Value := .array (s.map SortKey.json)

def ofJson? (v : Value) : Option Sorting := do
  let items ← v.items?
  items.mapM SortKey.ofJson?

end Sorting

/-! ## Pages -/

namespace Page

def json (p : Page) : Value :=
  ofMembers [("page_index", .ofNat p.index.toNat), ("page_size", .ofNat p.size.toNat), ("sort", p.sorting.json)]

def ofJson? (v : Value) : Option Page := do
  match ← v.fields? [required "page_index", required "page_size", required "sort"] with
  | [some index, some size, some sorting] => return ⟨← index.word64?, ← size.word32?, ← Sorting.ofJson? sorting⟩
  | _ => none

end Page

namespace Bookmark

def json (b : Bookmark) : Value :=
  ofMembers [("cursor", ofTextOrNull b.token), ("page_size", .ofNat b.size.toNat), ("sort", b.sorting.json)]

def ofJson? (v : Value) : Option Bookmark := do
  match ← v.fields? [nullable "cursor", required "page_size", required "sort"] with
  | [some token, some size, some sorting] => return ⟨← token.textOrNull?, ← size.word32?, ← Sorting.ofJson? sorting⟩
  | _ => none

end Bookmark

/-! ## Answers -/

namespace Links

def json (l : Links) : Value :=
  ofMembers ([("self", ofText l.self), ("first", ofText l.first)]
    ++ (textMember "prev" l.prev ++ textMember "next" l.next))

def ofJson? (v : Value) : Option Links := do
  match ← v.fields? [required "self", required "first", optional "prev", optional "next"] with
  | [some self, some first, prev, next] =>
    return ⟨← self.text?, ← first.text?, ← orStandard none textOrNull? prev, ← orStandard none textOrNull? next⟩
  | _ => none

end Links

namespace ErrorReport

def json (r : ErrorReport) : Value :=
  ofMembers ([("error", ofText r.error), ("code", ofText r.code)]
    ++ (textMember "parameter" r.parameter ++ [("status", .ofNat r.status.toNat)]))

def ofJson? (v : Value) : Option ErrorReport := do
  match ← v.fields? [required "error", required "code", nullable "parameter", required "status"] with
  | [some error, some code, some parameter, some status] =>
    return ⟨← error.text?, ← code.text?, ← parameter.textOrNull?, ← status.word16?⟩
  | _ => none

end ErrorReport

/-! ## Settings -/

namespace PagingSettings

def json (s : PagingSettings) : Value :=
  ofMembers
    [("default_page_size", .ofNat s.defaultSize.toNat), ("max_page_size", .ofNat s.maxSize.toNat),
      ("page_parameter", ofText s.names.page), ("size_parameter", ofText s.names.size),
      ("sort_parameter", ofText s.names.sort), ("integrity_secret", ofTextOrNull s.secret)]

def fields : List Field :=
  [optional "default_page_size", optional "max_page_size", optional "page_parameter", optional "size_parameter",
    optional "sort_parameter", optional "integrity_secret"]

def ofJson? (v : Value) : Option PagingSettings := do
  let standard : PagingSettings := {}
  match ← v.fields? fields with
  | [defaultSize, maxSize, page, size, sort, secret] =>
    let names : ParameterNames :=
      ⟨← orStandard standard.names.page text? page, ← orStandard standard.names.size text? size,
        ← orStandard standard.names.sort text? sort⟩
    return ⟨← orStandard standard.defaultSize word32? defaultSize, ← orStandard standard.maxSize word32? maxSize,
      names, ← orStandard standard.secret textOrNull? secret⟩
  | _ => none

end PagingSettings

namespace ServiceSettings

def json (s : ServiceSettings) : Value := ofMembers [("name", ofText s.name), ("log_level", ofText s.logLevel)]

def ofJson? (v : Value) : Option ServiceSettings := do
  match ← v.fields? [required "name", optional "log_level"] with
  | [some name, logLevel] =>
    let name ← name.text?
    return ⟨name, ← orStandard ({ name } : ServiceSettings).logLevel text? logLevel⟩
  | _ => none

end ServiceSettings

namespace Settings

def json (s : Settings) : Value := ofMembers [("service", s.service.json), ("paging", s.paging.json)]

def ofJson? (v : Value) : Option Settings := do
  match ← v.fields? [required "service", optional "paging"] with
  | [some service, paging] =>
    return ⟨← ServiceSettings.ofJson? service, ← orStandard {} PagingSettings.ofJson? paging⟩
  | _ => none

end Settings

end Pagemark
