/-
  Pagemark.Proofs.Command.Report — what is printed of a page.

  In JSON each field of the page stands under its key, and the text is read back as the record that was
  printed. On lines the numbers stand behind their labels. The last line ends in the sort values with blanks
  between them, and properties may hold blanks and new lines; but they hold no comma, and behind a comma stands a
  direction word, so that the values can still be told apart.

  Proved: `tells_reportJson` — the record; `numbers_of_report` — the lines of the numbers; `sortText_injective`,
  `report_injective` — different pages are never printed alike.
-/

import Pagemark.Command.Basic
import Pagemark.Proofs.Json.Documents
import Pagemark.Proofs.Sorting

namespace Pagemark.Command

open Text Json

/-! ## The record -/

/-- The text is a JSON object with the fields of the page. -/
structure Tells (text : String) (page : Page) : Prop where
  index : Holds text "page_index" (some (.ofNat page.index.toNat))
  size : Holds text "page_size" (some (.ofNat page.size.toNat))
  offset : Holds text "offset" (some (.ofNat page.offset.toNat))
  sorting : Holds text "sort" (some (.array (page.sorting.values.map .ofText)))

theorem plain_reportJson (page : Page) : (reportJson page).Plain := by
  refine .object ?_
  simp only [List.forall_mem_cons]
  refine ⟨.number _, .number _, .number _, .array fun v hv => ?_, by simp⟩
  obtain ⟨s, -, rfl⟩ := List.mem_map.mp hv
  exact .text s

theorem tells_reportJson (page : Page) : Tells ((reportJson page).printLines ++ "\n") page := by
  have text := holds_of_parse? (parse?_printLines (plain_reportJson page)).2
  exact ⟨text "page_index", text "page_size", text "offset", text "sort"⟩

/-! ## The lines -/

theorem toList_reportLine (label content : String) :
    (reportLine label content).toList = (label.toList ++ content.toList) ++ ['\n'] := by
  rw [reportLine, String.toList_append, String.toList_append]
  rfl

theorem toList_report (page : Page) :
    (report page).toList = ("page       ".toList ++ (decimal page.index.toNat).toList) ++ '\n' ::
      (("size       ".toList ++ (decimal page.size.toNat).toList) ++ '\n' ::
        (("offset     ".toList ++ (decimal page.offset.toNat).toList) ++ '\n' ::
          (("sort       ".toList ++ (sortText page.sorting).toList) ++ ['\n']))) := by
  simp only [report, String.toList_append, toList_reportLine, List.append_assoc, List.cons_append,
    List.nil_append]

/-- The numbers stand on the first three lines. -/
theorem numbers_of_report (page : Page) :
    ∃ more, pieces (· == '\n') (report page).toList =
      ["page       " ++ decimal page.index.toNat, "size       " ++ decimal page.size.toNat,
        "offset     " ++ decimal page.offset.toNat].map String.toList ++ more := by
  have line {label : String} (h : '\n' ∉ label.toList) (n : Nat) (rest : List Char) :
      pieces (· == '\n') ((label.toList ++ (decimal n).toList) ++ '\n' :: rest)
        = (label ++ decimal n).toList :: pieces (· == '\n') rest := by
    rw [String.toList_append]
    refine pieces_append (by decide) (fun c hc => beq_eq_false_iff_ne.mpr ?_) rest
    rintro rfl
    rcases List.mem_append.mp hc with hc | hc
    · exact h hc
    · exact not_mem_decimal (by decide) n hc
  rw [toList_report, line (by decide), line (by decide), line (by decide)]
  exact ⟨_, rfl⟩

/-! ## Different pages -/

theorem decimal_line_inj {m n : Nat} {a b : List Char}
    (h : (decimal m).toList ++ '\n' :: a = (decimal n).toList ++ '\n' :: b) : m = n ∧ a = b := by
  have hcut := congrArg (cut '\n') h
  rw [cut_append (not_mem_decimal (by decide) m), cut_append (not_mem_decimal (by decide) n)] at hcut
  obtain ⟨digits, rest⟩ := Prod.mk.inj hcut
  refine ⟨?_, Option.some.inj rest⟩
  rw [← ofDigitChars_decimal m, ← ofDigitChars_decimal n, digits]

/-- What stands behind the first of some pieces. -/
def joinedBehind : List (List Char) → List Char
  | [] => []
  | pieces => ' ' :: joined ' ' pieces

theorem joined_cons (piece : List Char) (more : List (List Char)) :
    joined ' ' (piece :: more) = piece ++ joinedBehind more := by
  cases more with
  | nil => simp [joined, joinedBehind]
  | cons next more => rfl

/-- A sort value ends where its direction word does. -/
theorem text_append_inj {key key' : SortKey} (h : ',' ∉ key.property.toList) (h' : ',' ∉ key'.property.toList)
    {a b : List Char} (heq : key.text.toList ++ a = key'.text.toList ++ b) : key = key' ∧ a = b := by
  have parts (k : SortKey) : k.text.toList = k.property.toList ++ ',' :: k.direction.word.toList := by simp [SortKey.text]
  rw [parts, parts, List.append_assoc, List.append_assoc, List.cons_append, List.cons_append] at heq
  have hcut := congrArg (cut ',') heq
  rw [cut_append h, cut_append h'] at hcut
  obtain ⟨property, direction⟩ := Prod.mk.inj hcut
  obtain ⟨p, d⟩ := key
  obtain ⟨p', d'⟩ := key'
  obtain rfl : p = p' := String.toList_injective property
  have words : d.word.toList ++ a = d'.word.toList ++ b := Option.some.inj direction
  cases d <;> cases d'
  · exact ⟨rfl, List.append_cancel_left words⟩
  · cases words
  · cases words
  · exact ⟨rfl, List.append_cancel_left words⟩

/-- So all of them can be told apart, one value after another. -/
theorem behind_texts_inj : ∀ {s s' : Sorting}, (∀ key ∈ s, ',' ∉ key.property.toList) →
    (∀ key ∈ s', ',' ∉ key.property.toList) →
    joinedBehind (s.map (·.text.toList)) = joinedBehind (s'.map (·.text.toList)) → s = s'
  | [], [], _, _, _ => rfl
  | [], _ :: _, _, _, heq => by cases heq
  | _ :: _, [], _, _, heq => by cases heq
  | key :: s, key' :: s', h, h', heq => by
    obtain ⟨first, others⟩ := List.forall_mem_cons.mp h
    obtain ⟨first', others'⟩ := List.forall_mem_cons.mp h'
    -- Both begin with the same blank; then the first values agree, and what is behind them.
    have values := List.tail_eq_of_cons_eq heq
    rw [List.map_cons, List.map_cons, joined_cons, joined_cons] at values
    obtain ⟨rfl, more⟩ := text_append_inj first first' values
    rw [behind_texts_inj others others' more]

theorem toList_sortText (key : SortKey) (s : Sorting) :
    (sortText (key :: s)).toList = joined ' ' ((key :: s).map (·.text.toList)) := by
  have blank : " " = String.singleton ' ' := rfl
  rw [sortText, blank, toList_intercalate_singleton, Sorting.values, List.map_map]
  · rfl
  · exact List.cons_ne_nil _ _

theorem sortText_ne_unsorted (key : SortKey) (s : Sorting) : sortText (key :: s) ≠ "unsorted" := by
  intro heq
  have comma : ',' ∈ (sortText (key :: s)).toList := by
    rw [toList_sortText, List.map_cons, joined_cons]
    simp [SortKey.text]
  rw [heq] at comma
  exact absurd comma (by decide)

/-- Sort values on one line are told apart by their commas. -/
theorem sortText_injective {s s' : Sorting} (h : ∀ key ∈ s, ',' ∉ key.property.toList)
    (h' : ∀ key ∈ s', ',' ∉ key.property.toList) (heq : sortText s = sortText s') : s = s' := by
  cases s with
  | nil =>
    cases s' with
    | nil => rfl
    | cons key' s' => exact absurd heq.symm (sortText_ne_unsorted key' s')
  | cons key s =>
    cases s' with
    | nil => exact absurd heq (sortText_ne_unsorted key s)
    | cons key' s' =>
      have chars := congrArg String.toList heq
      rw [toList_sortText, toList_sortText] at chars
      exact behind_texts_inj h h' (congrArg (' ' :: ·) chars)

/-- Pages that are printed alike are the same. -/
theorem report_injective {page page' : Page} (h : ∀ key ∈ page.sorting, key.Named)
    (h' : ∀ key ∈ page'.sorting, key.Named) (heq : report page = report page') : page = page' := by
  have chars := congrArg String.toList heq
  rw [toList_report, toList_report] at chars
  simp only [List.append_assoc] at chars
  obtain ⟨index, chars⟩ := decimal_line_inj (List.append_cancel_left chars)
  obtain ⟨size, chars⟩ := decimal_line_inj (List.append_cancel_left chars)
  obtain ⟨-, chars⟩ := decimal_line_inj (List.append_cancel_left chars)
  have sorting : sortText page.sorting = sortText page'.sorting :=
    String.toList_injective (List.append_cancel_right (List.append_cancel_left chars))
  obtain ⟨i, z, s⟩ := page
  obtain ⟨i', z', s'⟩ := page'
  obtain rfl : i = i' := UInt64.toNat_inj.mp index
  obtain rfl : z = z' := UInt32.toNat_inj.mp size
  obtain rfl : s = s' := sortText_injective (fun key hkey => (h key hkey).2.1) (fun key hkey => (h' key hkey).2.1) sorting
  rfl

end Pagemark.Command
