/-
  Pagemark.Proofs.Text.Integer — signed numerals read as the integers they spell.

  A text is taken apart into a sign that may be left out, the digits behind it, and what follows
  them. The digits are read until they pass the limit, and only digits that do not pass it are
  followed by a look at what comes next. So a text that spells an integer is read as that integer
  or found too great or too small; a text that spells none is refused for that, unless its digits
  have passed the limit before (`Overruns`).

  Proved: `readInt_append` — what is read of a sign, digits and a rest; from it `readInt_of_spells`,
  `readInt_of_overruns`, `readInt_of_neither`, which leave no text out; `not_spells_of_overruns` —
  and the second is no case of the first.
-/

import Pagemark.Proofs.Text.Cut
import Pagemark.Proofs.Text.Numeral

namespace Pagemark.Text

/-- The sign in front of digits. -/
inductive Sign
  | absent
  | plus
  | minus

namespace Sign

def text : Sign → List Char
  | .absent => []
  | .plus => ['+']
  | .minus => ['-']

/-- The integer with the sign and the magnitude. -/
def apply : Sign → Nat → Int
  | .minus, n => -(n : Int)
  | _, n => n

/-- The greatest magnitude. One integer more is allowed below zero than above. -/
def limit (limit : Nat) : Sign → Nat
  | .minus => limit + 1
  | _ => limit

/-- What is said of a greater magnitude. -/
def excess : Sign → NumeralError
  | .minus => .tooSmall
  | _ => .tooLarge

/-- A magnitude is allowed when the integer is in range. -/
theorem le_limit_iff (sign : Sign) {limit n : Nat} :
    n ≤ sign.limit limit ↔ -((limit : Int) + 1) ≤ sign.apply n ∧ sign.apply n ≤ limit := by
  cases sign with
  | absent | plus => simp only [Sign.limit, apply]; omega
  | minus => simp only [Sign.limit, apply]; omega

/-- If it is not, the integer is out of range at the end that is named. -/
theorem excess_of_not_le (sign : Sign) {limit n : Nat} (h : ¬ n ≤ sign.limit limit) :
    ((limit : Int) < sign.apply n ∧ sign.excess = .tooLarge)
      ∨ (sign.apply n < -((limit : Int) + 1) ∧ sign.excess = .tooSmall) := by
  cases sign with
  | absent | plus =>
    refine Or.inl ⟨?_, rfl⟩
    simp only [Sign.limit, apply] at h ⊢
    omega
  | minus =>
    refine Or.inr ⟨?_, rfl⟩
    simp only [Sign.limit, apply] at h ⊢
    omega

end Sign

/-- An optional sign and one or more digits that spell the integer. -/
def SpellsInteger (cs : List Char) (v : Int) : Prop :=
  ∃ (sign : Sign) (digits : List Char), cs = sign.text ++ digits ∧ digits ≠ [] ∧ (∀ c ∈ digits, c.isDigit = true) ∧
    v = sign.apply (Nat.ofDigitChars 10 digits 0)

/-- Digits that pass the limit, and something behind them that is no digit. -/
def Overruns (limit : Nat) (sign : Sign) (cs : List Char) : Prop :=
  ∃ (digits : List Char) (c : Char) (rest : List Char), cs = sign.text ++ (digits ++ c :: rest) ∧
    (∀ d ∈ digits, d.isDigit = true) ∧ c.isDigit = false ∧ sign.limit limit < Nat.ofDigitChars 10 digits 0

/-! ## Reading -/

/-- Behind the sign the digits are read up to the limit of the sign. Nothing behind it is no number,
and without a sign the text does not begin with one. -/
theorem readInt_sign {limit : Nat} (sign : Sign) {cs : List Char} (hne : cs ≠ [])
    (plain : sign = .absent → ∀ c ∈ cs.head?, c ≠ '+' ∧ c ≠ '-') :
    readInt 10 limit (sign.text ++ cs)
      = (readDigits 10 (sign.limit limit) sign.excess 0 cs).map sign.apply := by
  cases cs with
  | nil => exact absurd rfl hne
  | cons c cs =>
    cases sign with
    | plus => rfl
    | minus => rfl
    | absent =>
      obtain ⟨hplus, hminus⟩ := plain rfl c rfl
      have unsigned : readInt 10 limit (c :: cs) = (readDigits 10 limit .tooLarge 0 (c :: cs)).map Int.ofNat := by
        simp [readInt, hplus, hminus]
      exact unsigned

/-- What is read of a sign, one digit or more, and a rest that begins with no digit. -/
theorem readInt_append {limit : Nat} (sign : Sign) {digits rest : List Char} (hne : digits ≠ [])
    (hd : ∀ c ∈ digits, c.isDigit = true) (hrest : ∀ c ∈ rest.head?, c.isDigit = false) :
    readInt 10 limit (sign.text ++ (digits ++ rest))
      = if Nat.ofDigitChars 10 digits 0 ≤ sign.limit limit then
          if rest = [] then .ok (sign.apply (Nat.ofDigitChars 10 digits 0)) else .error .invalidDigit
        else .error sign.excess := by
  have plain : ∀ c ∈ (digits ++ rest).head?, c ≠ '+' ∧ c ≠ '-' := by
    intro c hc
    cases digits with
    | nil => exact absurd rfl hne
    | cons d ds =>
      cases hc
      have digit := hd c List.mem_cons_self
      refine ⟨?_, ?_⟩
      · rintro rfl; exact absurd digit (by decide)
      · rintro rfl; exact absurd digit (by decide)
  rw [readInt_sign sign (by simp [hne]) (fun _ => plain), readDigits_append hd hrest (Nat.zero_le _)]
  split
  · split
    · rfl
    · rfl
  · rfl

theorem readInt_digits {limit : Nat} (sign : Sign) {digits : List Char} (hne : digits ≠ [])
    (hd : ∀ c ∈ digits, c.isDigit = true) :
    readInt 10 limit (sign.text ++ digits)
      = if Nat.ofDigitChars 10 digits 0 ≤ sign.limit limit then .ok (sign.apply (Nat.ofDigitChars 10 digits 0))
        else .error sign.excess := by
  have read : readInt 10 limit (sign.text ++ (digits ++ [])) = _ := readInt_append sign hne hd (fun _ h => by cases h)
  rwa [List.append_nil, if_pos rfl] at read

/-- A text that spells an integer is read as it, or found to be out of range. -/
theorem readInt_of_spells {limit : Nat} {cs : List Char} {v : Int} (h : SpellsInteger cs v) :
    readInt 10 limit cs
      = if (limit : Int) < v then .error .tooLarge
        else if v < -((limit : Int) + 1) then .error .tooSmall
        else .ok v := by
  obtain ⟨sign, digits, rfl, hne, hd, rfl⟩ := h
  rw [readInt_digits sign hne hd]
  by_cases hn : Nat.ofDigitChars 10 digits 0 ≤ sign.limit limit
  · obtain ⟨hleast, hgreatest⟩ := sign.le_limit_iff.mp hn
    rw [if_pos hn, if_neg (by omega), if_neg (by omega)]
  · rw [if_neg hn]
    rcases sign.excess_of_not_le hn with ⟨hpast, hexcess⟩ | ⟨hpast, hexcess⟩
    · rw [hexcess, if_pos hpast]
    · rw [hexcess, if_neg (by omega), if_pos hpast]

theorem readInt_decimal {n limit : Nat} (h : n ≤ limit) : readInt 10 limit (decimal n).toList = .ok (n : Int) := by
  have spells : SpellsInteger (decimal n).toList n :=
    ⟨.absent, _, rfl, decimal_ne_nil n, fun _ => isDigit_of_mem_decimal, congrArg Int.ofNat (ofDigitChars_decimal n).symm⟩
  rw [readInt_of_spells spells, if_neg (by omega), if_neg (by omega)]

/-- Digits that pass the limit decide, whatever stands behind them. -/
theorem readInt_of_overruns {limit : Nat} {sign : Sign} {cs : List Char} (h : Overruns limit sign cs) :
    readInt 10 limit cs = .error sign.excess := by
  obtain ⟨digits, c, rest, rfl, hd, hc, hpast⟩ := h
  have hne : digits ≠ [] := by
    rintro rfl
    exact absurd hpast (Nat.not_lt_zero _)
  have hrest : ∀ x ∈ (c :: rest).head?, x.isDigit = false := by
    intro x hx
    cases hx
    exact hc
  rw [readInt_append sign hne hd hrest, if_neg (Nat.not_le.mpr hpast)]

/-- Every text but the empty one is a sign and something behind it; without a sign it does not begin
with one. -/
theorem exists_sign {cs : List Char} (hne : cs ≠ []) :
    ∃ sign body, cs = Sign.text sign ++ body ∧ (sign = .absent → body ≠ [] ∧ ∀ c ∈ body.head?, c ≠ '+' ∧ c ≠ '-') := by
  cases cs with
  | nil => exact absurd rfl hne
  | cons c cs =>
    by_cases hplus : c = '+'
    · exact ⟨.plus, cs, by rw [hplus]; rfl, fun h => by cases h⟩
    by_cases hminus : c = '-'
    · exact ⟨.minus, cs, by rw [hminus]; rfl, fun h => by cases h⟩
    refine ⟨.absent, c :: cs, rfl, fun _ => ⟨List.cons_ne_nil _ _, ?_⟩⟩
    intro x hx
    cases hx
    exact ⟨hplus, hminus⟩

/-- A text that neither spells an integer nor passes the limit before it goes wrong is none. -/
theorem readInt_of_neither {limit : Nat} {cs : List Char} (hspells : ∀ v, ¬ SpellsInteger cs v)
    (hover : ∀ sign, ¬ Overruns limit sign cs) :
    readInt 10 limit cs = .error (if cs = [] then .empty else .invalidDigit) := by
  by_cases hempty : cs = []
  · subst hempty
    rfl
  rw [if_neg hempty]
  obtain ⟨sign, body, rfl, plain⟩ := exists_sign hempty
  have whole : body.takeWhile Char.isDigit ++ body.dropWhile Char.isDigit = body := List.takeWhile_append_dropWhile
  have hd : ∀ c ∈ body.takeWhile Char.isDigit, c.isDigit = true := List.all_eq_true.mp List.all_takeWhile
  have hrest : ∀ c ∈ (body.dropWhile Char.isDigit).head?, c.isDigit = false := head_dropWhile body
  generalize body.takeWhile Char.isDigit = digits at whole hd
  generalize body.dropWhile Char.isDigit = rest at whole hrest
  subst whole
  by_cases hdigits : digits = []
  · -- A sign alone, or a character that is no digit where the first digit should stand.
    subst hdigits
    by_cases hbody : rest = []
    · subst hbody
      cases sign with
      | absent => exact absurd rfl (plain rfl).1
      | plus | minus => rfl
    · have within : [] ++ rest ≠ [] := hbody
      rw [readInt_sign sign within fun h => (plain h).2, readDigits_append hd hrest (Nat.zero_le _), if_neg hbody]
      exact congrArg (Except.map sign.apply) (if_pos (Nat.zero_le _))
  · -- Digits that end the text would spell an integer, and such that pass the limit would overrun it.
    rw [readInt_append sign hdigits hd hrest]
    cases rest with
    | nil => exact absurd ⟨sign, digits, by rw [List.append_nil], hdigits, hd, rfl⟩ (hspells _)
    | cons c rest =>
      by_cases hlimit : Nat.ofDigitChars 10 digits 0 ≤ sign.limit limit
      · rw [if_pos hlimit, if_neg (List.cons_ne_nil _ _)]
      · exact absurd ⟨digits, c, rest, rfl, hd, hrest c rfl, Nat.not_le.mp hlimit⟩ (hover sign)

/-! ## No text is both -/

/-- Behind its first character a text that spells an integer has digits only. -/
theorem isDigit_of_mem_tail {cs : List Char} {v : Int} (h : SpellsInteger cs v) : ∀ c ∈ cs.tail, c.isDigit = true := by
  obtain ⟨sign, digits, rfl, hne, hd, -⟩ := h
  cases sign with
  | absent => exact fun c hc => hd c (List.mem_of_mem_tail hc)
  | plus => exact hd
  | minus => exact hd

theorem not_spells_of_overruns {limit : Nat} {sign : Sign} {cs : List Char} (h : Overruns limit sign cs) (v : Int) :
    ¬ SpellsInteger cs v := by
  intro spells
  obtain ⟨digits, c, rest, rfl, -, hc, hpast⟩ := h
  have behind : c ∈ (sign.text ++ (digits ++ c :: rest)).tail := by
    have within : c ∈ digits ++ c :: rest := by simp
    cases sign with
    | plus => exact within
    | minus => exact within
    | absent =>
      cases digits with
      | nil => exact absurd hpast (Nat.not_lt_zero _)
      | cons d ds =>
        show c ∈ ds ++ c :: rest
        simp
  rw [isDigit_of_mem_tail spells c behind] at hc
  cases hc

end Pagemark.Text
