/-
  Pagemark.Proofs.Text.Numeral — digits read as the number they spell.

  Proved: `readDigits_append` — what is read of digits and a rest; `readNat_eq_ok_iff` — nothing is
  read as a number but an optional plus sign and digits that spell a number of at most the limit;
  `readNat_decimal` — so a number is read back from its decimal digits; `foldlM_toDigits` — the
  digits of a number in any base up to sixteen give the number.
-/

import Mathlib.Algebra.Group.Nat.Defs
import Pagemark.Text.Numeral

namespace Pagemark.Text

theorem toNat_of_isDigit {c : Char} (h : c.isDigit = true) : 48 ≤ c.toNat ∧ c.toNat ≤ 57 := by
  simp only [Char.isDigit, Bool.and_eq_true, decide_eq_true_eq] at h
  exact ⟨h.1, h.2⟩

theorem digit?_of_isDigit {c : Char} (h : c.isDigit = true) : digit? 10 c = some (c.toNat - 48) := by
  obtain ⟨hl, hh⟩ := toNat_of_isDigit h
  have hlt : c.toNat - 48 < 10 := by omega
  simp [digit?, hl, hh, hlt, Option.filter]

theorem le_ofDigitChars (cs : List Char) (acc : Nat) : acc ≤ Nat.ofDigitChars 10 cs acc := by
  induction cs generalizing acc with
  | nil => simp
  | cons c cs ih =>
    rw [Nat.ofDigitChars_cons]
    have := ih (10 * acc + (c.toNat - '0'.toNat))
    omega

theorem isDigit_of_digit? {c : Char} {d : Nat} (h : digit? 10 c = some d) : c.isDigit = true := by
  obtain ⟨hvalue, hlt⟩ := Option.filter_eq_some_iff.mp h
  have hlt : d < 10 := by simpa using hlt
  have hrange : 48 ≤ c.toNat ∧ c.toNat ≤ 57 := by
    split at hvalue
    · simp_all
    split at hvalue
    · simp_all only [Bool.and_eq_true, decide_eq_true_eq, Option.some.injEq]
      omega
    split at hvalue
    · simp_all only [Bool.and_eq_true, decide_eq_true_eq, Option.some.injEq]
      omega
    · cases hvalue
  simp only [Char.isDigit, Bool.and_eq_true, decide_eq_true_eq]
  exact hrange

theorem digit?_of_not_isDigit {c : Char} (h : c.isDigit = false) : digit? 10 c = none := by
  cases hd : digit? 10 c with
  | none => rfl
  | some d => rw [isDigit_of_digit? hd] at h; cases h

/-- Digits are read as the number they spell, up to the limit; their value only grows, so that one
comparison at the end stands for all. What stands behind them is looked at only when they pass it. -/
theorem readDigits_append {limit acc : Nat} {excess : NumeralError} {digits rest : List Char}
    (hd : ∀ c ∈ digits, c.isDigit = true) (hrest : ∀ c ∈ rest.head?, c.isDigit = false) (hacc : acc ≤ limit) :
    readDigits 10 limit excess acc (digits ++ rest)
      = if Nat.ofDigitChars 10 digits acc ≤ limit then
          if rest = [] then .ok (Nat.ofDigitChars 10 digits acc) else .error .invalidDigit
        else .error excess := by
  induction digits generalizing acc with
  | nil =>
    cases rest with
    | nil => simp [readDigits, hacc]
    | cons c rest => simp [readDigits, hacc, digit?_of_not_isDigit (hrest c rfl)]
  | cons c cs ih =>
    have hval : acc * 10 + (c.toNat - 48) = 10 * acc + (c.toNat - '0'.toNat) := by
      show _ = 10 * acc + (c.toNat - 48)
      omega
    simp only [List.cons_append, readDigits, digit?_of_isDigit (hd c List.mem_cons_self), hval, Nat.ofDigitChars_cons]
    by_cases h : 10 * acc + (c.toNat - '0'.toNat) ≤ limit
    · rw [if_pos h, ih (fun x hx => hd x (List.mem_cons_of_mem _ hx)) h]
    · have := le_ofDigitChars cs (10 * acc + (c.toNat - '0'.toNat))
      rw [if_neg h, if_neg (by omega)]

theorem readDigits_of_isDigit {limit acc : Nat} {excess : NumeralError} {cs : List Char}
    (hd : ∀ c ∈ cs, c.isDigit = true) (hacc : acc ≤ limit) :
    readDigits 10 limit excess acc cs
      = if Nat.ofDigitChars 10 cs acc ≤ limit then .ok (Nat.ofDigitChars 10 cs acc) else .error excess := by
  have read : readDigits 10 limit excess acc (cs ++ []) = _ :=
    readDigits_append hd (fun _ h => by cases h) hacc
  rwa [List.append_nil, if_pos rfl] at read

/-- Only digits are read. -/
theorem isDigit_of_readDigits {limit acc n : Nat} {excess : NumeralError} {cs : List Char}
    (h : readDigits 10 limit excess acc cs = .ok n) : ∀ c ∈ cs, c.isDigit = true := by
  induction cs generalizing acc with
  | nil => exact fun _ hc => absurd hc List.not_mem_nil
  | cons c cs ih =>
    rw [readDigits] at h
    split at h
    · cases h
    rename_i d hd
    simp only at h
    split at h
    · exact List.forall_mem_cons.mpr ⟨isDigit_of_digit? hd, ih h⟩
    · cases h

theorem readDigits_eq_ok_iff {limit n : Nat} {excess : NumeralError} {cs : List Char} :
    readDigits 10 limit excess 0 cs = .ok n
      ↔ (∀ c ∈ cs, c.isDigit = true) ∧ Nat.ofDigitChars 10 cs 0 = n ∧ n ≤ limit := by
  constructor
  · intro h
    have hd := isDigit_of_readDigits h
    rw [readDigits_of_isDigit hd (Nat.zero_le _)] at h
    split at h
    · rename_i hle
      cases h
      exact ⟨hd, rfl, hle⟩
    · cases h
  · rintro ⟨hd, rfl, hle⟩
    rw [readDigits_of_isDigit hd (Nat.zero_le _), if_pos hle]

theorem isDigit_of_mem_decimal {n : Nat} {c : Char} (h : c ∈ (decimal n).toList) : c.isDigit = true := by
  rw [decimal, String.toList_ofList] at h
  exact Nat.isDigit_of_mem_toDigits (by decide) (by decide) h

theorem not_mem_decimal {c : Char} (h : c.isDigit = false) (n : Nat) : c ∉ (decimal n).toList := by
  intro hc
  rw [isDigit_of_mem_decimal hc] at h
  cases h

theorem decimal_ne_nil (n : Nat) : (decimal n).toList ≠ [] := by
  rw [decimal, String.toList_ofList]
  exact Nat.toDigits_ne_nil

theorem ofDigitChars_decimal (n : Nat) : Nat.ofDigitChars 10 (decimal n).toList 0 = n := by
  rw [decimal, String.toList_ofList, Nat.ofDigitChars_ten_toDigits]

/-! ## Digits of other bases -/

theorem digit?_digitChar {base d : Nat} (hbase : base ≤ 16) (hd : d < base) :
    digit? base (Nat.digitChar d) = some d := by
  have table : ∀ (base : Fin 17) (d : Fin 16), d.val < base.val → digit? base (Nat.digitChar d) = some d.val := by
    decide
  exact table ⟨base, by omega⟩ ⟨d, by omega⟩ hd

/-- Digits of a base are digits one by one. -/
theorem exists_of_mem_toDigits {base n : Nat} (hbase : 1 < base) {c : Char} (h : c ∈ Nat.toDigits base n) :
    ∃ d < base, c = Nat.digitChar d := by
  induction n using Nat.strongRecOn with
  | ind n ih =>
    by_cases hn : n < base
    · rw [Nat.toDigits_of_lt_base hn] at h
      exact ⟨n, hn, List.mem_singleton.mp h⟩
    · rw [Nat.toDigits_of_base_le hbase (by omega)] at h
      rcases List.mem_append.mp h with h | h
      · exact ih (n / base) (Nat.div_lt_self (by omega) hbase) h
      · exact ⟨n % base, Nat.mod_lt n (by omega), List.mem_singleton.mp h⟩

/-- The digits of a number, taken together one after another, give the number. -/
theorem foldlM_toDigits {base : Nat} (hbase : 1 < base) (hlimit : base ≤ 16) (n : Nat) :
    (Nat.toDigits base n).foldlM (fun value c => (digit? base c).map (value * base + ·)) 0 = some n := by
  induction n using Nat.strongRecOn with
  | ind n ih =>
    by_cases hn : n < base
    · rw [Nat.toDigits_of_lt_base hn]
      simp [digit?_digitChar hlimit hn]
    · have hlast : n % base < base := Nat.mod_lt n (by omega)
      have front := ih (n / base) (Nat.div_lt_self (by omega) hbase)
      rw [Nat.toDigits_of_base_le hbase (by omega), List.foldlM_append, front]
      simp [digit?_digitChar hlimit hlast, Nat.div_add_mod']

/-- Digits spell a number that is small for their count. -/
theorem lt_of_digits {base acc n : Nat} {cs : List Char}
    (h : cs.foldlM (fun n c => (digit? base c).map (n * base + ·)) acc = some n) :
    n < (acc + 1) * base ^ cs.length := by
  induction cs generalizing acc with
  | nil =>
    cases h
    simp
  | cons c cs ih =>
    rw [List.foldlM_cons] at h
    obtain ⟨value, hvalue, h⟩ := Option.bind_eq_some_iff.mp h
    obtain ⟨d, hd, rfl⟩ := Option.map_eq_some_iff.mp hvalue
    have hdigit : d < base := by simpa using (Option.filter_eq_some_iff.mp hd).2
    calc n < (acc * base + d + 1) * base ^ cs.length := ih h
      _ ≤ (acc + 1) * base * base ^ cs.length := Nat.mul_le_mul_right _ (by rw [Nat.succ_mul]; omega)
      _ = (acc + 1) * base ^ (cs.length + 1) := by rw [Nat.pow_succ', Nat.mul_assoc]

/-- The first digit of a positive number is not zero. -/
theorem head_toDigits_ne_zero {n : Nat} (hn : 0 < n) : ∀ c ∈ (Nat.toDigits 10 n).head?, c ≠ '0' := by
  induction n using Nat.strongRecOn with
  | ind n ih =>
    by_cases hsmall : n < 10
    · rw [Nat.toDigits_of_lt_base hsmall]
      have table : ∀ d : Fin 10, 0 < d.val → Nat.digitChar d ≠ '0' := by decide
      rintro c hc
      cases hc
      exact table ⟨n, hsmall⟩ hn
    · have hne := Nat.toDigits_ne_nil (n := n / 10) (b := 10)
      have ih := ih (n / 10) (by omega) (by omega)
      rw [Nat.toDigits_of_base_le (by decide) (by omega)]
      cases hdigits : Nat.toDigits 10 (n / 10) with
      | nil => exact absurd hdigits hne
      | cons d ds =>
        rw [hdigits] at ih
        exact ih

theorem isAlphanum_of_mem_hexadecimal {n : Nat} {c : Char} (h : c ∈ (hexadecimal n).toList) : c.isAlphanum = true := by
  rw [hexadecimal, String.toList_ofList] at h
  obtain ⟨d, hd, rfl⟩ := exists_of_mem_toDigits (by decide) h
  have table : ∀ d : Fin 16, (Nat.digitChar d).isAlphanum = true := by decide
  exact table ⟨d, hd⟩

theorem hexadecimal_ne_nil (n : Nat) : (hexadecimal n).toList ≠ [] := by
  rw [hexadecimal, String.toList_ofList]
  exact Nat.toDigits_ne_nil

/-! ## What is read -/

/-- An optional plus sign and one or more digits that spell the number. -/
def Spells (cs : List Char) (n : Nat) : Prop :=
  ∃ digits : List Char, (cs = digits ∨ cs = '+' :: digits) ∧ digits ≠ [] ∧ (∀ c ∈ digits, c.isDigit = true) ∧
    Nat.ofDigitChars 10 digits 0 = n

theorem spells_plus_iff {cs : List Char} {n : Nat} :
    Spells ('+' :: cs) n ↔ cs ≠ [] ∧ (∀ c ∈ cs, c.isDigit = true) ∧ Nat.ofDigitChars 10 cs 0 = n := by
  constructor
  · rintro ⟨digits, rfl | h, hne, hd, hn⟩
    · exact absurd (hd '+' List.mem_cons_self) (by decide)
    · obtain ⟨-, rfl⟩ := List.cons.inj h
      exact ⟨hne, hd, hn⟩
  · rintro ⟨hne, hd, hn⟩
    exact ⟨cs, Or.inr rfl, hne, hd, hn⟩

theorem spells_iff_of_head {c : Char} (hc : c ≠ '+') {cs : List Char} {n : Nat} :
    Spells (c :: cs) n ↔ (∀ x ∈ c :: cs, x.isDigit = true) ∧ Nat.ofDigitChars 10 (c :: cs) 0 = n := by
  constructor
  · rintro ⟨digits, rfl | h, hne, hd, hn⟩
    · exact ⟨hd, hn⟩
    · exact absurd (List.cons.inj h).1 hc
  · rintro ⟨hd, hn⟩
    exact ⟨c :: cs, Or.inl rfl, List.cons_ne_nil _ _, hd, hn⟩

/-- A number is read exactly when the text spells it and it is at most the limit. -/
theorem readNat_eq_ok_iff {limit n : Nat} {cs : List Char} :
    readNat 10 limit cs = .ok n ↔ Spells cs n ∧ n ≤ limit := by
  have nothing : ¬ Spells [] n := by
    rintro ⟨digits, rfl | h, hne, -, -⟩
    · exact hne rfl
    · cases h
  unfold readNat
  split
  · simp [nothing]
  · simp [spells_plus_iff]
  · rename_i cs hne
    have hne : cs ≠ [] := fun e => hne (by rw [e])
    rw [readDigits_eq_ok_iff, spells_plus_iff, and_assoc, and_assoc]
    exact ⟨fun h => ⟨hne, h⟩, fun h => h.2⟩
  · rename_i hnil _ hplus
    cases cs with
    | nil => exact absurd rfl hnil
    | cons c cs =>
      have hc : c ≠ '+' := by
        rintro rfl
        exact hplus cs rfl
      rw [readDigits_eq_ok_iff, spells_iff_of_head hc, and_assoc]

theorem readNat_decimal {n limit : Nat} (h : n ≤ limit) : readNat 10 limit (decimal n).toList = .ok n :=
  readNat_eq_ok_iff.mpr
    ⟨⟨_, Or.inl rfl, decimal_ne_nil n, fun _ => isDigit_of_mem_decimal, ofDigitChars_decimal n⟩, h⟩

end Pagemark.Text
