/-
  Pagemark.Proofs.Pager.Size — what a size parameter means.

  A size parameter that spells an integer, however long, means that integer: a positive one is
  lowered to the greatest size, and of one that is not positive the value is reported, from the
  least 64-bit integer up. Whatever spells no integer is reported as it stands. That is the rule
  (`SizeMeaning`), and it is kept by every text but one kind: digits are read only until they pass
  the range of 64 bits, so when they do, what stands behind them is not seen (`Overruns`), and a
  text that is no number is taken for the greatest size or for a number below zero.

  Proved: `readSize_of_spells`, `readSize_of_neither`, `readSize_of_overruns` — what is read of the
  three kinds of text; `exists_sizeMeaning` — the rule covers every text; `size_means_integer_iff` —
  reading follows the rule exactly when no digits run over, and what a bookmark makes of it.
-/

import Mathlib.Algebra.Ring.Int.Defs
import Pagemark.Proofs.Pager.Link

namespace Pagemark.Pager

open Text

/-- The size, or the error, that a size parameter stands for. -/
inductive SizeMeaning (p : Pager) : Option String → Except SizeError UInt32 → Prop
  | absent : SizeMeaning p none (.ok p.defaultSize)
  | positive {raw : String} {v : Int} {size : UInt32} : SpellsInteger raw.toList v → 1 ≤ v →
      (size.toNat : Int) = min v p.maxSize.toNat → SizeMeaning p (some raw) (.ok size)
  | notPositive {raw : String} {v : Int} : SpellsInteger raw.toList v → v ≤ 0 →
      SizeMeaning p (some raw) (.error (.notPositive (max v (-2 ^ 63))))
  | notANumber {raw : String} : (∀ v, ¬ SpellsInteger raw.toList v) →
      SizeMeaning p (some raw) (.error (.notANumber raw (if raw.toList = [] then .empty else .invalidDigit)))

/-- What is made of digits that pass the range, whatever stands behind them. -/
def overrunSize (p : Pager) : Sign → Except SizeError UInt32
  | .minus => .error (.notPositive (-2 ^ 63))
  | _ => .ok p.maxSize

variable {p : Pager} {raw : String}

/-! ## Three kinds of text -/

/-- A spelled integer is clamped, and the range of 64 bits does not show. -/
theorem readSize_of_spells {v : Int} (h : SpellsInteger raw.toList v) :
    p.readSize (some raw)
      = if v ≤ 0 then .error (.notPositive (max v (-2 ^ 63))) else .ok (.ofNat (min v.toNat p.maxSize.toNat)) := by
  have hlimit : (sizeLimit : Int) = 2 ^ 63 - 1 := rfl
  have htop := p.maxSize.toNat_lt
  simp only [readSize, readInt_of_spells h, hlimit]
  by_cases habove : (2 ^ 63 - 1 : Int) < v
  · have greatest : min v.toNat p.maxSize.toNat = p.maxSize.toNat := by omega
    rw [if_pos habove, if_neg (by omega), greatest, UInt32.ofNat_toNat]
  rw [if_neg habove]
  by_cases hbelow : v < -(2 ^ 63 - 1 + 1)
  · have least : max v (-2 ^ 63) = -(2 ^ 63 - 1 + 1) := by omega
    rw [if_pos hbelow, if_pos (by omega), least]
  · have same : max v (-2 ^ 63) = v := by omega
    rw [if_neg hbelow, same]

/-- What is no number, and does not run over first, is reported whole. -/
theorem readSize_of_neither (hspells : ∀ v, ¬ SpellsInteger raw.toList v)
    (hover : ∀ sign, ¬ Overruns sizeLimit sign raw.toList) :
    p.readSize (some raw) = .error (.notANumber raw (if raw.toList = [] then .empty else .invalidDigit)) := by
  simp only [readSize, readInt_of_neither hspells hover]
  by_cases hempty : raw.toList = []
  · rw [if_pos hempty]
  · rw [if_neg hempty]

theorem readSize_of_overruns {sign : Sign} (h : Overruns sizeLimit sign raw.toList) :
    p.readSize (some raw) = p.overrunSize sign := by
  simp only [readSize, readInt_of_overruns h]
  cases sign with
  | absent | plus => rfl
  | minus => rfl

/-! ## The rule -/

/-- The rule says of every size parameter what it means. -/
theorem exists_sizeMeaning (p : Pager) (raw : Option String) : ∃ r, p.SizeMeaning raw r := by
  cases raw with
  | none => exact ⟨_, .absent⟩
  | some raw =>
    by_cases hspells : ∃ v, SpellsInteger raw.toList v
    · obtain ⟨v, hv⟩ := hspells
      by_cases hpos : 1 ≤ v
      · refine ⟨.ok (.ofNat (min v.toNat p.maxSize.toNat)), .positive hv hpos ?_⟩
        rw [toNat_leastSize]
        omega
      · exact ⟨_, .notPositive hv (by omega)⟩
    · exact ⟨_, .notANumber fun v hv => hspells ⟨v, hv⟩⟩

/-- Unless digits run over, what is meant is what is read. -/
theorem readSize_of_sizeMeaning {raw : Option String} {r : Except SizeError UInt32} (h : p.SizeMeaning raw r)
    (hover : ∀ text ∈ raw, ∀ sign, ¬ Overruns sizeLimit sign text.toList) : p.readSize raw = r := by
  cases h with
  | absent => rfl
  | positive hv hpos hsize =>
    rw [readSize_of_spells hv, if_neg (by omega)]
    congr 1
    rw [← UInt32.toNat_inj, toNat_leastSize]
    omega
  | notPositive hv hpos => rw [readSize_of_spells hv, if_pos hpos]
  | notANumber hspells => exact readSize_of_neither hspells (hover _ rfl)

/-- Digits that run over leave a text that means no number. -/
theorem notANumber_of_overruns {sign : Sign} (h : Overruns sizeLimit sign raw.toList) {r : Except SizeError UInt32}
    (meaning : p.SizeMeaning (some raw) r) : ∃ cause, r = .error (.notANumber raw cause) := by
  cases meaning with
  | positive hv _ _ => exact absurd hv (not_spells_of_overruns h _)
  | notPositive hv _ => exact absurd hv (not_spells_of_overruns h _)
  | notANumber _ => exact ⟨_, rfl⟩

/-- So it is not answered as it should be. -/
theorem not_sizeMeaning_of_overruns {sign : Sign} (h : Overruns sizeLimit sign raw.toList) :
    ¬ p.SizeMeaning (some raw) (p.overrunSize sign) := by
  intro meaning
  obtain ⟨cause, hcause⟩ := notANumber_of_overruns h meaning
  cases sign with
  | absent | plus => cases hcause
  | minus => cases hcause

/-! ## The size of a bookmark -/

theorem bookmark_size_error_iff {t : Target} {cause : SizeError} :
    p.bookmark t = .error (.size p.names.size cause) ↔ p.readSize (t.first p.names.size) = .error cause := by
  unfold bookmark
  cases p.readSize (t.first p.names.size) with
  | error other => simp
  | ok size =>
    cases Sorting.parse (t.values p.names.sort) with
    | error other => simp
    | ok sorting => simp

/-- A size parameter is read as what it means if and only if it has no digits that run over in front
of what makes it no number; else those digits alone are answered. What is read is the size of the
bookmark, or the error that is reported in its place. -/
theorem size_means_integer_iff (p : Pager) (t : Target) :
    let raw := t.first p.names.size
    ((∀ r, p.readSize raw = r ↔ p.SizeMeaning raw r)
        ↔ ∀ text ∈ raw, ∀ sign, ¬ Overruns sizeLimit sign text.toList) ∧
      (∀ text ∈ raw, ∀ sign, Overruns sizeLimit sign text.toList → p.readSize raw = p.overrunSize sign) ∧
      (∀ cause, p.bookmark t = .error (.size p.names.size cause) ↔ p.readSize raw = .error cause) ∧
      ∀ b, p.bookmark t = .ok b → p.readSize raw = .ok b.size := by
  intro raw
  refine ⟨⟨?_, ?_⟩, ?_, fun cause => bookmark_size_error_iff, fun b hb => (p.bookmark_ok t hb).2.1⟩
  · intro rule text htext sign hover
    have answered := (rule _).mp rfl
    rw [htext, readSize_of_overruns hover] at answered
    exact not_sizeMeaning_of_overruns hover answered
  · intro hover r
    constructor
    · rintro rfl
      obtain ⟨r, meaning⟩ := p.exists_sizeMeaning raw
      rwa [readSize_of_sizeMeaning meaning hover]
    · exact fun meaning => readSize_of_sizeMeaning meaning hover
  · intro text htext sign hover
    rw [htext]
    exact readSize_of_overruns hover

/-- A zero with a minus sign, a number that is padded with zeros far beyond the digits of the range,
and digits that run over. -/
theorem size_means_integer_signed_and_padded :
    let value (size : String) : Target := ⟨"/items", [("size", size)]⟩
    standard.readSize ((value "-0").first "size") = .error (.notPositive 0) ∧
      standard.readSize ((value "+000000000000000000000000000042").first "size") = .ok 42 ∧
      standard.readSize ((value "-9223372036854775809 ").first "size") = .error (.notPositive (-2 ^ 63)) := by
  intro value
  have zero : SpellsInteger "-0".toList 0 := ⟨.minus, ['0'], rfl, by decide, List.all_eq_true.mp rfl, rfl⟩
  have padded : SpellsInteger "+000000000000000000000000000042".toList 42 :=
    ⟨.plus, "000000000000000000000000000042".toList, rfl, by decide, List.all_eq_true.mp rfl, rfl⟩
  have overrun : Overruns sizeLimit .minus "-9223372036854775809 ".toList :=
    ⟨"9223372036854775809".toList, ' ', [], rfl, List.all_eq_true.mp rfl, rfl, by decide⟩
  refine ⟨?_, ?_, ?_⟩
  · refine ((size_means_integer_iff standard (value "-0")).1.mpr ?_ _).mpr (.notPositive zero (by decide))
    rintro text ⟨⟩ sign hover
    exact not_spells_of_overruns hover _ zero
  · refine ((size_means_integer_iff standard (value _)).1.mpr ?_ _).mpr (.positive padded (by decide) (by decide))
    rintro text ⟨⟩ sign hover
    exact not_spells_of_overruns hover _ padded
  · exact (size_means_integer_iff standard (value _)).2.1 _ rfl _ overrun

/-- Digits that run over and a letter behind them are no number, and are answered with the greatest size. -/
theorem sizes_hide_what_follows :
    let t := Target.parse "/items?size=9999999999999999999x"
    t.first standard.names.size = some "9999999999999999999x" ∧
      (∀ v, ¬ SpellsInteger "9999999999999999999x".toList v) ∧ standard.bookmark t = .ok ⟨none, 100, []⟩ := by
  have overrun : Overruns sizeLimit .absent "9999999999999999999x".toList :=
    ⟨"9999999999999999999".toList, 'x', [], rfl, List.all_eq_true.mp rfl, rfl, by decide⟩
  exact ⟨rfl, not_spells_of_overruns overrun, rfl⟩

end Pagemark.Pager
