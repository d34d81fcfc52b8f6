/-
  Pagemark.Proofs.Json.Documents — the JSON forms lose nothing.

  Every record is written as an object whose keys are all different, so what stands under a key is
  what was written there. A field that is left out when it has nothing is one that may be absent
  when it is read, and then has nothing again; a field that is written as null is read as nothing
  from the null. Numbers keep their digits, so that a 64-bit index comes back to the last one.

  Proved: `fields?_ofMembers`, `find?_eq` — the fields of a record by their keys; `ofJson?_json` of each
  type — its value is read back; `json_loses_nothing` — so is its text, and what is left out, what is
  null, and what the client is told of a fault.
-/

import Pagemark.Json.Documents
import Pagemark.Proofs.Json.Text

namespace Pagemark

open Json Json.Value

/-! ## Records -/

namespace Json

theorem mapM_member? (members : List (String × Value)) :
    (members.map fun (key, v) => (some key, v)).mapM member? = some members := by
  induction members with
  | nil => rfl
  | cons m members ih => simp [member?, ih]

/-- The fields of a record are found among its members. -/
theorem fields?_ofMembers (fields : List Field) (members : List (String × Value)) :
    (ofMembers members).fields? fields = fields.mapM (·.find? members) := by
  simp only [ofMembers, Value.fields?, mapM_member?]

namespace Value

theorem nat?_ofNat {n limit : Nat} (h : n ≤ limit) : (ofNat n).nat? limit = some n := by
  have read := Text.readNat_decimal h
  have digits : ∀ c ∈ (Text.decimal n).toList, c.isDigit = true := fun _ => Text.isDigit_of_mem_decimal
  cases hcs : (Text.decimal n).toList with
  | nil => exact absurd hcs (Text.decimal_ne_nil n)
  | cons c cs =>
    rw [hcs] at read digits
    simp [ofNat, nat?, hcs, digits c List.mem_cons_self, read, Except.toOption]

@[simp] theorem word16?_ofNat (n : UInt16) : (ofNat n.toNat).word16? = some n := by
  have h : n.toNat ≤ UInt16.size - 1 := Nat.le_pred_of_lt n.toNat_lt
  rw [word16?, nat?_ofNat h, Option.map_some, UInt16.ofNat_toNat]

@[simp] theorem word32?_ofNat (n : UInt32) : (ofNat n.toNat).word32? = some n := by
  have h : n.toNat ≤ UInt32.size - 1 := Nat.le_pred_of_lt n.toNat_lt
  rw [word32?, nat?_ofNat h, Option.map_some, UInt32.ofNat_toNat]

@[simp] theorem word64?_ofNat (n : UInt64) : (ofNat n.toNat).word64? = some n := by
  have h : n.toNat ≤ UInt64.size - 1 := Nat.le_pred_of_lt n.toNat_lt
  rw [word64?, nat?_ofNat h, Option.map_some, UInt64.ofNat_toNat]

@[simp] theorem text?_ofText (s : String) : (ofText s).text? = some s := rfl

@[simp] theorem textOrNull?_ofText (s : String) : (ofText s).textOrNull? = some (some s) := rfl

@[simp] theorem textOrNull?_ofTextOrNull (s : Option String) : (ofTextOrNull s).textOrNull? = some s := by
  cases s with
  | none => rfl
  | some s => rfl

@[simp] theorem plain_ofText (s : String) : (ofText s).Plain := .text s

@[simp] theorem plain_ofNat (n : Nat) : (ofNat n).Plain := .number n

@[simp] theorem plain_ofTextOrNull (s : Option String) : (ofTextOrNull s).Plain := by
  cases s with
  | none => exact .null
  | some s => exact .text s

theorem plain_textMember (name : String) (s : Option String) : ∀ m ∈ textMember name s, m.2.Plain := by
  cases s with
  | none => simp [textMember]
  | some s => simp [textMember]

end Value

/-! ## Texts -/

/-- Whatever is written as a text in this form is read back from it. -/
def LosesNothing {α : Type} (json : α → Value) (ofJson? : Value → Option α) : Prop :=
  ∀ x, (Value.parse? (json x).print).bind ofJson? = some x

/-- The text is that of an object, with the value under the key; without the key when there is none. -/
def Holds (text key : String) (v? : Option Value) : Prop :=
  ∃ members, Value.parse? text = some (.object members) ∧ members.lookup (some key) = v?

theorem losesNothing {α : Type} {json : α → Value} {ofJson? : Value → Option α} (plain : ∀ x, (json x).Plain)
    (back : ∀ x, ofJson? (json x) = some x) : LosesNothing json ofJson? := by
  intro x
  rw [parse?_print (plain x), Option.bind_some, back]

theorem lookup_some_map (key : String) (members : List (String × Value)) :
    (members.map fun (key, v) => (some key, v)).lookup (some key) = members.lookup key := by
  induction members with
  | nil => rfl
  | cons m members ih =>
    obtain ⟨name, v⟩ := m
    simp only [List.map_cons, List.lookup_cons, ih, Option.some_beq_some]

theorem holds_of_parse? {text : String} {members : List (String × Value)}
    (h : Value.parse? text = some (ofMembers members)) (key : String) : Holds text key (members.lookup key) :=
  ⟨_, h, lookup_some_map key members⟩

theorem holds_print {members : List (String × Value)} (h : (ofMembers members).Plain) (key : String) :
    Holds (ofMembers members).print key (members.lookup key) :=
  holds_of_parse? (parse?_print h) key

end Json

/-! ## Values -/

theorem Direction.ofJson?_json (d : Direction) : ofJson? d.json = some d := by
  cases d with
  | ascending => rfl
  | descending => rfl

theorem SortKey.ofJson?_json (key : SortKey) : ofJson? key.json = some key := by
  simp [ofJson?, json, fields?_ofMembers, Field.find?, required, Direction.ofJson?_json]

theorem SortKey.plain_json (key : SortKey) : key.json.Plain := .object (by simp [Direction.json])

theorem Sorting.ofJson?_json (s : Sorting) : ofJson? s.json = some s := by
  have each : (s.map SortKey.json).mapM SortKey.ofJson? = some s := by
    induction s with
    | nil => rfl
    | cons key s ih => simp [SortKey.ofJson?_json, ih]
  simp [ofJson?, json, items?, each]

theorem Sorting.plain_json (s : Sorting) : s.json.Plain := by
  refine .array fun v hv => ?_
  obtain ⟨key, -, rfl⟩ := List.mem_map.mp hv
  exact key.plain_json

theorem Page.ofJson?_json (p : Page) : ofJson? p.json = some p := by
  simp [ofJson?, json, fields?_ofMembers, Field.find?, required, Sorting.ofJson?_json]

theorem Page.plain_json (p : Page) : p.json.Plain := .object (by simp [p.sorting.plain_json])

theorem Bookmark.ofJson?_json (b : Bookmark) : ofJson? b.json = some b := by
  simp [ofJson?, json, fields?_ofMembers, Field.find?, required, nullable, Sorting.ofJson?_json]

theorem Bookmark.plain_json (b : Bookmark) : b.json.Plain := .object (by simp [b.sorting.plain_json])

/-- A link that is not there is left out, and read back from that. -/
theorem Links.ofJson?_json (l : Links) : ofJson? l.json = some l := by
  obtain ⟨self, first, prev, next⟩ := l
  cases prev <;> cases next <;>
    simp [ofJson?, json, fields?_ofMembers, Field.find?, required, Json.optional, textMember, orStandard]

theorem Links.plain_json (l : Links) : l.json.Plain := by
  refine .object (List.forall_mem_append.mpr ⟨by simp, List.forall_mem_append.mpr ⟨?_, ?_⟩⟩)
  · exact plain_textMember "prev" l.prev
  · exact plain_textMember "next" l.next

/-- A parameter that is not there is left out, and a field that is left out is read as a null. -/
theorem ErrorReport.ofJson?_json (r : ErrorReport) : ofJson? r.json = some r := by
  obtain ⟨error, code, parameter, status⟩ := r
  cases parameter with
  | none => simp [ofJson?, json, fields?_ofMembers, Field.find?, required, nullable, textMember, textOrNull?]
  | some parameter => simp [ofJson?, json, fields?_ofMembers, Field.find?, required, nullable, textMember]

theorem ErrorReport.plain_json (r : ErrorReport) : r.json.Plain := by
  refine .object (List.forall_mem_append.mpr ⟨by simp, List.forall_mem_append.mpr ⟨?_, by simp⟩⟩)
  exact plain_textMember "parameter" r.parameter

theorem PagingSettings.ofJson?_json (s : PagingSettings) : ofJson? s.json = some s := by
  simp [ofJson?, json, fields?_ofMembers, fields, Field.find?, Json.optional, orStandard]

theorem PagingSettings.plain_json (s : PagingSettings) : s.json.Plain := .object (by simp)

theorem ServiceSettings.ofJson?_json (s : ServiceSettings) : ofJson? s.json = some s := by
  simp [ofJson?, json, fields?_ofMembers, Field.find?, required, Json.optional, orStandard]

theorem ServiceSettings.plain_json (s : ServiceSettings) : s.json.Plain := .object (by simp)

theorem Settings.ofJson?_json (s : Settings) : ofJson? s.json = some s := by
  simp [ofJson?, json, fields?_ofMembers, Field.find?, required, Json.optional, orStandard,
    ServiceSettings.ofJson?_json, PagingSettings.ofJson?_json]

theorem Settings.plain_json (s : Settings) : s.json.Plain :=
  .object (by simp [s.service.plain_json, s.paging.plain_json])

/-! ## What is written -/

theorem Links.holds_prev_next (l : Links) :
    Holds l.json.print "prev" (l.prev.map ofText) ∧ Holds l.json.print "next" (l.next.map ofText) := by
  have text := holds_print l.plain_json
  obtain ⟨self, first, prev, next⟩ := l
  cases prev <;> cases next <;> exact ⟨text "prev", text "next"⟩

theorem ErrorReport.holds_parameter (r : ErrorReport) : Holds r.json.print "parameter" (r.parameter.map ofText) := by
  have text := holds_print r.plain_json "parameter"
  obtain ⟨error, code, parameter, status⟩ := r
  cases parameter with
  | none => exact text
  | some parameter => exact text

/-- Each type is read back from its text, whatever characters and numbers it holds and whether the fields
that it can do without are there. A link or a parameter that is not there has no key in the text; a token
or a secret that is not there is a null. So the client is told the message, the code and the parameter of
its fault. -/
theorem json_loses_nothing :
    (LosesNothing SortKey.json SortKey.ofJson? ∧ LosesNothing Sorting.json Sorting.ofJson? ∧
        LosesNothing Bookmark.json Bookmark.ofJson? ∧ LosesNothing Page.json Page.ofJson? ∧
        LosesNothing Links.json Links.ofJson? ∧ LosesNothing ErrorReport.json ErrorReport.ofJson? ∧
        LosesNothing PagingSettings.json PagingSettings.ofJson? ∧ LosesNothing Settings.json Settings.ofJson?) ∧
      (∀ l : Links, Holds l.json.print "prev" (l.prev.map ofText) ∧ Holds l.json.print "next" (l.next.map ofText)) ∧
      (∀ r : ErrorReport, Holds r.json.print "parameter" (r.parameter.map ofText)) ∧
      (∀ b : Bookmark, Holds b.json.print "cursor" (some (ofTextOrNull b.token))) ∧
      (∀ s : PagingSettings, Holds s.json.print "integrity_secret" (some (ofTextOrNull s.secret))) ∧
      ∀ e : PageError, (Value.parse? (ErrorReport.ofError e).json.print).bind ErrorReport.ofJson?
        = some ⟨e.message, e.code, some e.parameter, 400⟩ := by
  have reports := losesNothing ErrorReport.plain_json ErrorReport.ofJson?_json
  refine ⟨⟨?_, ?_, ?_, ?_, ?_, reports, ?_, ?_⟩, Links.holds_prev_next, ErrorReport.holds_parameter, ?_, ?_, ?_⟩
  · exact losesNothing SortKey.plain_json SortKey.ofJson?_json
  · exact losesNothing Sorting.plain_json Sorting.ofJson?_json
  · exact losesNothing Bookmark.plain_json Bookmark.ofJson?_json
  · exact losesNothing Page.plain_json Page.ofJson?_json
  · exact losesNothing Links.plain_json Links.ofJson?_json
  · exact losesNothing PagingSettings.plain_json PagingSettings.ofJson?_json
  · exact losesNothing Settings.plain_json Settings.ofJson?_json
  · exact fun b => holds_print b.plain_json "cursor"
  · exact fun s => holds_print s.plain_json "integrity_secret"
  · exact fun e => reports (.ofError e)

end Pagemark
