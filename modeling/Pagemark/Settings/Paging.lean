/-
  Pagemark.Settings.Paging — the settings of a pager.

  Settings can be inconsistent; `fault?` finds the first problem, and only settings without one
  make a pager.
-/

import Pagemark.Pager.Basic

namespace Pagemark

open Text

structure PagingSettings where
  defaultSize : UInt32 := Pager.standardSize
  maxSize : UInt32 := Pager.standardMaxSize
  names : ParameterNames := Pager.standardNames
  /-- The secret for keyed checksums. -/
  secret : Option String := none
  deriving DecidableEq, Repr

/-- Why settings cannot be used. -/
inductive SettingsFault
  | zeroDefaultSize
  | zeroMaxSize
  | defaultAboveMax (defaultSize maxSize : UInt32)
  | blankName (field : String)
  | equalNames
  | emptySecret
  deriving DecidableEq, Repr

def SettingsFault.message (fault : SettingsFault) : String :=
  "Invalid configuration: " ++
    match fault with
    | .zeroDefaultSize => "paging.default_page_size must be positive"
    | .zeroMaxSize => "paging.max_page_size must be positive"
    | .defaultAboveMax d m =>
      "paging.default_page_size (" ++ decimal d.toNat ++ ") exceeds paging.max_page_size (" ++ decimal m.toNat ++ ")"
    | .blankName field => "paging." ++ field ++ " must not be empty"
    | .equalNames => "paging.page_parameter, size_parameter and sort_parameter must differ"
    | .emptySecret => "paging.integrity_secret must not be empty when set"

namespace PagingSettings

/-- The first problem. -/
def fault? (s : PagingSettings) : Option SettingsFault :=
  if s.defaultSize = 0 then some .zeroDefaultSize
  else if s.maxSize = 0 then some .zeroMaxSize
  else if s.maxSize < s.defaultSize then some (.defaultAboveMax s.defaultSize s.maxSize)
  else if isAllBlank s.names.page then some (.blankName "page_parameter")
  else if isAllBlank s.names.size then some (.blankName "size_parameter")
  else if isAllBlank s.names.sort then some (.blankName "sort_parameter")
  else if s.names.page = s.names.size ∨ s.names.page = s.names.sort ∨ s.names.size = s.names.sort then some .equalNames
  else if s.secret = some "" then some .emptySecret
  else none

/-- The settings on one line, for diagnostics; the secret is not shown. -/
def describe (s : PagingSettings) : String :=
  "PagingConfig \x7b default_page_size: " ++ decimal s.defaultSize.toNat
    ++ ", max_page_size: " ++ decimal s.maxSize.toNat
    ++ ", page_parameter: " ++ quoted s.names.page
    ++ ", size_parameter: " ++ quoted s.names.size
    ++ ", sort_parameter: " ++ quoted s.names.sort
    ++ ", integrity_secret: " ++ Codec.Stack.redactedText s.secret ++ " \x7d"

end PagingSettings

namespace Pager

def configuredEvent (s : PagingSettings) : Log.Event :=
  ⟨.debug, source, "Configured page request binder",
    [("default_page_size", .number s.defaultSize.toNat), ("max_page_size", .number s.maxSize.toNat),
      ("keyed", .flag s.secret.isSome)]⟩

/-- The standard pager with the sizes, names and secret of the settings. -/
def ofSettings (s : PagingSettings) : Log.Traced (Except SettingsFault Pager) :=
  match s.fault? with
  | some fault => .quiet (.error fault)
  | none =>
    let pager := ofCodec (Codec.Stack.standard s.secret).codec
    ⟨.ok (((pager.withMaxSize s.maxSize).withDefaultSize s.defaultSize).withNames s.names), [configuredEvent s]⟩

end Pager

end Pagemark
