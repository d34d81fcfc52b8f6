/-
  Pagemark.Proofs.Page — pages partition the positions of a collection.

  An offset is a product that stops at the greatest word. Below that word it tells pages apart as the
  quotient does: the offsets that stopped stand behind every position there, so no page comes in twice
  and none is left out, although many of the last pages share one offset. Steps stop at the last index
  and at page 0; anywhere else a step forward and a step back undo each other.

  Where a list of moves leads is said of indices alone (`Move.run`), and of pages by taking one step after
  another (`Move.along`).

  Proved: `lists_iff` — a page lists the positions whose quotient is its index; `previous_next` and
  `next_previous` — steps undo each other; `along_run` — moves over pages are moves over indices, and
  keep the size and the sorting; `pages_partition_positions` — together.
-/

import Mathlib.Algebra.Group.Nat.Defs
import Mathlib.Logic.ExistsUnique
import Pagemark.Page

namespace Pagemark

namespace Page

/-! ## Positions -/

/-- The page lists the item at a position: the position is not before its offset, and less than its
size behind it. The sum is one of numbers, not of words. -/
def Lists (p : Page) (position : Nat) : Prop :=
  p.offset.toNat ≤ position ∧ position < p.offset.toNat + p.size.toNat

instance (p : Page) (position : Nat) : Decidable (p.Lists position) :=
  inferInstanceAs (Decidable (p.offset.toNat ≤ position ∧ position < p.offset.toNat + p.size.toNat))

theorem toNat_offset (p : Page) : p.offset.toNat = min (p.index.toNat * p.size.toNat) (2 ^ 64 - 1) :=
  UInt64.toNat_ofNat_of_lt' (by show min _ (2 ^ 64 - 1) < 2 ^ 64; omega)

theorem offset_le_offset {p q : Page} (hsize : p.size = q.size) (h : p.index ≤ q.index) : p.offset ≤ q.offset := by
  have hproduct : p.index.toNat * p.size.toNat ≤ q.index.toNat * p.size.toNat := Nat.mul_le_mul_right _ h
  rw [UInt64.le_iff_toNat_le, toNat_offset, toNat_offset, ← hsize]
  omega

/-- An offset that stopped is the greatest word, and no position below that is behind it. -/
theorem lists_iff {p : Page} (hpos : 1 ≤ p.size) {position : Nat} (h : position < 2 ^ 64 - 1) :
    p.Lists position ↔ p.index.toNat = position / p.size.toNat := by
  have hsize : 1 ≤ p.size.toNat := hpos
  have hquotient : position / p.size.toNat = p.index.toNat ↔
      p.index.toNat * p.size.toNat ≤ position ∧ position < p.index.toNat * p.size.toNat + p.size.toNat := by
    rw [Nat.div_eq_iff hsize]
    omega
  rw [eq_comm, hquotient, Lists, toNat_offset]
  omega

/-- The quotient is an index. -/
theorem existsUnique_lists {size : UInt32} (hpos : 1 ≤ size) (sorting : Sorting) {position : Nat}
    (h : position < 2 ^ 64 - 1) : ∃! index : UInt64, (Page.mk index size sorting).Lists position := by
  have hsmall : position / size.toNat < 2 ^ 64 := by
    have hle := Nat.div_le_self position size.toNat
    omega
  refine ⟨.ofNat (position / size.toNat), ?_, ?_⟩
  · exact (lists_iff (p := ⟨_, size, sorting⟩) hpos h).mpr (UInt64.toNat_ofNat_of_lt' hsmall)
  · intro index hindex
    rw [← (lists_iff (p := ⟨index, size, sorting⟩) hpos h).mp hindex, UInt64.ofNat_toNat]

/-! ## Steps -/

theorem toNat_index_next (p : Page) : p.next.index.toNat = min (p.index.toNat + 1) (2 ^ 64 - 1) := by
  have hlt := p.index.toNat_lt
  show (if p.index = maxWord then maxWord else p.index + 1).toNat = _
  by_cases h : p.index = maxWord
  · rw [if_pos h, h]
    rfl
  · have hne : p.index.toNat ≠ 2 ^ 64 - 1 := fun e => h (UInt64.toNat_inj.mp e)
    have hsucc : (p.index + 1).toNat = p.index.toNat + 1 := by
      rw [UInt64.toNat_add]
      exact Nat.mod_eq_of_lt (by show p.index.toNat + 1 < _; omega)
    rw [if_neg h, hsucc]
    omega

/-- There is a page before any but page 0, and it differs in the index only. -/
theorem previous_of_pos {p : Page} (h : 0 < p.index) :
    ∃ index : UInt64, index.toNat + 1 = p.index.toNat ∧ p.previous = some { p with index } := by
  have hpos : 0 < p.index.toNat := h
  have hne : p.index ≠ 0 := by
    intro e
    rw [e] at hpos
    exact absurd hpos (by decide)
  refine ⟨p.index - 1, ?_, ?_⟩
  · rw [UInt64.toNat_sub_of_le]
    · show p.index.toNat - 1 + 1 = p.index.toNat
      omega
    · exact hpos
  · unfold previous
    rw [if_neg hne]

theorem next_previous {p : Page} (h : 0 < p.index) : p.previous.map next = some p := by
  obtain ⟨index, hindex, hprevious⟩ := previous_of_pos h
  have hlt := p.index.toNat_lt
  have hback : ({ p with index } : Page).next.index = p.index := by
    rw [← UInt64.toNat_inj, toNat_index_next]
    show min (index.toNat + 1) _ = _
    omega
  rw [hprevious, Option.map_some]
  congr 1
  show { p with index := ({ p with index } : Page).next.index } = p
  rw [hback]

theorem previous_next {p : Page} (h : p.index.toNat < 2 ^ 64 - 1) : p.next.previous = some p := by
  have hnext := toNat_index_next p
  have hpos : 0 < p.next.index := by
    show 0 < p.next.index.toNat
    omega
  obtain ⟨index, hindex, hprevious⟩ := previous_of_pos hpos
  have hback : index = p.index := by
    rw [← UInt64.toNat_inj]
    omega
  rw [hprevious, hback]
  rfl

/-- On the last index the product with one more stays below the limit only for size zero. -/
theorem offset_next {p : Page} (h : (p.index.toNat + 1) * p.size.toNat < 2 ^ 64) :
    p.next.offset.toNat = p.offset.toNat + p.size.toNat := by
  have hlt := p.index.toNat_lt
  have hsucc : (p.index.toNat + 1) * p.size.toNat = p.index.toNat * p.size.toNat + p.size.toNat := Nat.succ_mul _ _
  have hsize : p.next.size = p.size := rfl
  rw [toNat_offset, toNat_offset, toNat_index_next, hsize]
  by_cases hlast : p.index.toNat + 1 ≤ 2 ^ 64 - 1
  · rw [Nat.min_eq_left hlast]
    omega
  · have hindex : p.index.toNat + 1 = 2 ^ 64 := by omega
    have hzero : p.size.toNat = 0 := by
      rw [hindex] at h
      omega
    rw [hzero]
    rfl

end Page

/-! ## Moves -/

/-- A step among the pages of a collection, or none. -/
inductive Move
  | self
  | first
  | prev
  | next
  deriving DecidableEq, Repr

namespace Move

/-- Where a move leads from an index; there is no page before the first, and none after the last. -/
def index : Move → Nat → Option Nat
  | .self, i => some i
  | .first, _ => some 0
  | .prev, 0 => none
  | .prev, i + 1 => some i
  | .next, i => some (min (i + 1) (2 ^ 64 - 1))

/-- Where a list of moves leads from an index. -/
def run : List Move → Nat → Option Nat
  | [], i => some i
  | m :: more, i => (m.index i).bind (run more)

/-- The page that a move leads to. -/
def page : Move → Page → Option Page
  | .self, page => some page
  | .first, page => some page.first
  | .prev, page => page.previous
  | .next, page => some page.next

/-- The page that a list of moves leads to. -/
def along : List Move → Page → Option Page
  | [], page => some page
  | m :: more, page => (m.page page).bind (along more)

theorem index_page (m : Move) (p : Page) : (m.page p).map (·.index.toNat) = m.index p.index.toNat := by
  cases m with
  | self => rfl
  | first => rfl
  | prev =>
    by_cases h : p.index = 0
    · simp [page, Page.previous, h, index]
    · have hpos : 0 < p.index := UInt64.pos_iff_ne_zero.mpr h
      obtain ⟨i, hi, hprevious⟩ := Page.previous_of_pos hpos
      simp [page, hprevious, ← hi, index]
  | next => exact congrArg some p.toNat_index_next

/-- A move changes neither the size nor the sorting. -/
theorem page_frame {m : Move} {p p' : Page} (h : m.page p = some p') : p'.size = p.size ∧ p'.sorting = p.sorting := by
  cases m with
  | self => cases h; exact ⟨rfl, rfl⟩
  | first => cases h; exact ⟨rfl, rfl⟩
  | prev =>
    replace h : p.previous = some p' := h
    unfold Page.previous at h
    split at h
    · cases h
    · cases h; exact ⟨rfl, rfl⟩
  | next => cases h; exact ⟨rfl, rfl⟩

/-- Moves lead over pages as they do over indices, and only the index changes. -/
theorem along_run (moves : List Move) (p : Page) :
    match run moves p.index.toNat with
    | none => along moves p = none
    | some index => ∃ q, along moves p = some q ∧ q.index.toNat = index ∧ q.size = p.size ∧ q.sorting = p.sorting := by
  induction moves generalizing p with
  | nil => exact ⟨p, rfl, rfl, rfl, rfl⟩
  | cons m more ih =>
    have hindex := m.index_page p
    cases hpage : m.page p with
    | none =>
      rw [hpage] at hindex
      simp only [run, along, ← hindex, hpage]
      rfl
    | some p' =>
      rw [hpage] at hindex
      obtain ⟨hsize, hsorting⟩ := page_frame hpage
      have ih := ih p'
      rw [hsize, hsorting] at ih
      simp only [run, along, ← hindex, hpage]
      exact ih

end Move

/-! ## The partition -/

/-- The pages of a size list every position below the greatest offset once, at its quotient. Offsets are
products until these leave the words, and never fall; a step forward raises the offset by the size as long
as it does not leave the words either, and steps undo each other but at the ends. Whatever steps are taken,
they lead where the indices do and keep the size and the sorting. -/
theorem pages_partition_positions :
    (∀ (size : UInt32) (sorting : Sorting) (position : Nat), 1 ≤ size → position < 2 ^ 64 - 1 →
      (∃! index : UInt64, (Page.mk index size sorting).Lists position) ∧
        ∀ index : UInt64, (Page.mk index size sorting).Lists position ↔ index.toNat = position / size.toNat) ∧
    (∀ p : Page, p.offset.toNat
      = if p.index.toNat * p.size.toNat < 2 ^ 64 then p.index.toNat * p.size.toNat else 2 ^ 64 - 1) ∧
    (∀ p q : Page, p.size = q.size → p.index ≤ q.index → p.offset ≤ q.offset) ∧
    (∀ p : Page, (p.index.toNat + 1) * p.size.toNat < 2 ^ 64 → p.next.offset.toNat = p.offset.toNat + p.size.toNat) ∧
    (∀ p : Page, p.index.toNat < 2 ^ 64 - 1 → p.next.previous = some p) ∧
    (∀ p : Page, 0 < p.index → p.previous.map Page.next = some p) ∧
    ∀ (moves : List Move) (p : Page),
      match Move.run moves p.index.toNat with
      | none => Move.along moves p = none
      | some index =>
        ∃ q, Move.along moves p = some q ∧ q.index.toNat = index ∧ q.size = p.size ∧ q.sorting = p.sorting := by
  refine ⟨?_, ?_, ?_, ?_, ?_, ?_, Move.along_run⟩
  · intro size sorting position hpos h
    exact ⟨Page.existsUnique_lists hpos sorting h, fun index => Page.lists_iff (p := ⟨index, size, sorting⟩) hpos h⟩
  · intro p
    rw [Page.toNat_offset]
    split
    · omega
    · omega
  · intro p q hsize h
    exact Page.offset_le_offset hsize h
  · intro p h
    exact Page.offset_next h
  · intro p h
    exact Page.previous_next h
  · intro p h
    exact Page.next_previous h

/-- The last position that the pages of size two partition; the one behind it stands on two of them, and
from the last index a step forward is not undone. -/
theorem partition_ends_at_the_limit :
    let page (index : UInt64) : Page := ⟨index, 2, [⟨"name", .descending⟩]⟩
    (∀ index, (page index).Lists (2 ^ 64 - 2) ↔ index = 9223372036854775807) ∧
      (page 9223372036854775806).next.offset.toNat = 2 ^ 64 - 2 ∧
      (page 9223372036854775806).next.previous = some (page 9223372036854775806) ∧
      (page 9223372036854775808).previous.map Page.next = some (page 9223372036854775808) ∧
      (page 9223372036854775807).Lists (2 ^ 64 - 1) ∧ (page 9223372036854775808).Lists (2 ^ 64 - 1) ∧
      (page maxWord).next.previous ≠ some (page maxWord) := by
  intro page
  obtain ⟨partition, -, -, raised, forward, back, -⟩ := pages_partition_positions
  have listed (index : UInt64) : (page index).Lists (2 ^ 64 - 2) ↔ index = 9223372036854775807 := by
    have quotient := (partition 2 [⟨"name", .descending⟩] (2 ^ 64 - 2) (by decide) (by decide)).2 index
    rw [← UInt64.toNat_inj]
    exact quotient
  refine ⟨listed, ?_, forward _ (by decide), back _ (by decide), by decide, by decide, by decide⟩
  rw [raised _ (by decide)]
  decide

end Pagemark
