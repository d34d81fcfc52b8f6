/-
  Pagemark.Proofs.Json.Text — a value is read back from its text.

  A value is written as a sequence of lexemes, and its text spells them: marks stand for themselves,
  a text stands between quotation marks with escapes for what must not stand there, and a word ends
  where a mark, a blank or a quotation mark begins. So what a text is read as does not depend on what
  stands behind it, as long as that does not go on with its last word (`Spells`), and spellings can be
  put together around marks. The reader builds the value back with one frame for each bracket that is
  open; what lies below in the stack is not touched.

  Texts hold any characters. Characters above the 16-bit range stand as they are, and no
  character is half of a surrogate pair, so units are joined to the characters that they were.

  Between lexemes a text may hold blanks, so that a value on several lines spells the same lexemes.

  Proved: `spells_printText`, `spells_decimal` — texts and numbers; `spells_chars`, `spells_lineChars` — every
  value without broken texts and with natural numbers (`Plain`); `run_lexemes` — the reader; `parse?_print`,
  `parse?_printLines` — together.
-/

import Mathlib.Data.List.TakeWhile
import Pagemark.Json.Printer
import Pagemark.Json.Reader
import Pagemark.Proofs.Text.Numeral
import Pagemark.Proofs.Text.Percent

namespace Pagemark.Json

open Text

/-! ## Spelling -/

/-- Whether a word in front of the text is complete there. -/
def EndsWord (rest : List Char) : Prop := ∀ c ∈ rest.head?, Lexeme.State.endsWord c = true

/-- The characters are read as the lexemes, whatever stands behind them. -/
def Spells (cs : List Char) (ls : List Lexeme) : Prop :=
  ∀ rest, EndsWord rest → Lexeme.State.between.run (cs ++ rest) = (Lexeme.State.between.run rest).map (ls ++ ·)

theorem endsWord_cons {c : Char} (h : Lexeme.State.endsWord c = true) (cs : List Char) : EndsWord (c :: cs) := by
  rintro x ⟨⟩
  exact h

theorem endsWord_of_isBlank {c : Char} (h : isBlank c = true) : Lexeme.State.endsWord c = true := by
  simp [Lexeme.State.endsWord, h]

theorem endsWord_of_mark {c : Char} {l : Lexeme} (h : mark? c = some l) : Lexeme.State.endsWord c = true := by
  simp [Lexeme.State.endsWord, h]

namespace Spells

theorem nil : Spells [] [] := by
  intro rest _
  simp

/-- A mark between two spellings ends the last word of the first one. -/
theorem around {c : Char} {l : Lexeme} {cs ds : List Char} {ls ms : List Lexeme} (hc : mark? c = some l)
    (h : Spells cs ls) (h' : Spells ds ms) : Spells (cs ++ c :: ds) (ls ++ l :: ms) := by
  intro rest hrest
  have start : Lexeme.State.start c = ([l], .between) := by
    have notQuote : c ≠ '\x22' := by
      rintro rfl
      cases hc
    have notBlank : isBlank c = false := by
      rw [← Bool.not_eq_true]
      intro blank
      simp only [isBlank, Bool.or_eq_true, beq_iff_eq] at blank
      rcases blank with ((rfl | rfl) | rfl) | rfl <;> cases hc
    simp [Lexeme.State.start, notQuote, notBlank, hc]
  have mark : Lexeme.State.between.run (c :: (ds ++ rest)) = (Lexeme.State.between.run (ds ++ rest)).map (l :: ·) := by
    simp only [Lexeme.State.run, Lexeme.State.step, start, List.singleton_append]
  rw [List.append_assoc, List.cons_append, h _ (endsWord_cons (endsWord_of_mark hc) _), mark, h' rest hrest,
    Option.map_map, Option.map_map]
  refine congrArg (Option.map · _) ?_
  funext more
  simp

/-- So does a blank, which is no lexeme itself. -/
theorem parted {c : Char} {cs ds : List Char} {ls ms : List Lexeme} (hc : isBlank c = true) (h : Spells cs ls)
    (h' : Spells ds ms) : Spells (cs ++ c :: ds) (ls ++ ms) := by
  intro rest hrest
  have notQuote : c ≠ '\x22' := by
    rintro rfl
    cases hc
  have blank : Lexeme.State.between.run (c :: (ds ++ rest)) = Lexeme.State.between.run (ds ++ rest) := by
    simp [Lexeme.State.run, Lexeme.State.step, Lexeme.State.start, notQuote, hc]
  rw [List.append_assoc, List.cons_append, h _ (endsWord_cons (endsWord_of_isBlank hc) _), blank, h' rest hrest,
    Option.map_map]
  refine congrArg (Option.map · _) ?_
  funext more
  simp

theorem blanks (n : Nat) : Spells (List.replicate n ' ') [] := by
  induction n with
  | zero => exact .nil
  | succ n ih =>
    rw [List.replicate_succ]
    exact .parted rfl .nil ih

/-- A spelling may begin on a new line. -/
theorem newLine_append {cs : List Char} {ls : List Lexeme} (h : Spells cs ls) (depth : Nat) :
    Spells (Value.newLine depth ++ cs) ls := by
  have indented (n : Nat) : Spells (List.replicate n ' ' ++ cs) ls := by
    induction n with
    | zero => exact h
    | succ n ih =>
      rw [List.replicate_succ, List.cons_append]
      exact .parted rfl .nil ih
  rw [Value.newLine, List.cons_append]
  exact .parted rfl .nil (indented _)

/-- And what follows it may. -/
theorem append_newLine {cs : List Char} {ls : List Lexeme} (h : Spells cs ls) (depth : Nat) :
    Spells (cs ++ Value.newLine depth) ls := by
  simpa only [Value.newLine, List.append_nil] using Spells.parted rfl h (.blanks (2 * depth))

end Spells

/-! ## Words -/

/-- A word that was begun is read to its end. -/
theorem run_word {before cs rest : List Char} {v : Value} (hcs : ∀ c ∈ cs, Lexeme.State.endsWord c = false)
    (hrest : EndsWord rest) (hv : word? (before.reverse ++ cs) = some v) :
    (Lexeme.State.word before).run (cs ++ rest) = (Lexeme.State.between.run rest).map ([.word v] ++ ·) := by
  induction cs generalizing before with
  | nil =>
    rw [List.append_nil] at hv
    cases rest with
    | nil => simp [Lexeme.State.run, Lexeme.State.finish, hv]
    | cons c rest =>
      have ends := hrest c rfl
      simp only [List.nil_append, Lexeme.State.run, Lexeme.State.step, ends, if_true, hv, Option.map_some, Option.map_map]
      refine congrArg (Option.map · _) ?_
      funext more
      simp
  | cons c cs ih =>
    obtain ⟨goes, others⟩ := List.forall_mem_cons.mp hcs
    have step : (Lexeme.State.word before).run (c :: (cs ++ rest)) = (Lexeme.State.word (c :: before)).run (cs ++ rest) := by
      simp [Lexeme.State.run, Lexeme.State.step, goes]
    rw [List.cons_append, step, ih others (by simpa using hv)]

theorem spells_word {cs : List Char} {v : Value} (hcs : ∀ c ∈ cs, Lexeme.State.endsWord c = false) (hne : cs ≠ [])
    (hv : word? cs = some v) : Spells cs [.word v] := by
  intro rest hrest
  obtain ⟨c, cs, rfl⟩ := List.exists_cons_of_ne_nil hne
  obtain ⟨goes, others⟩ := List.forall_mem_cons.mp hcs
  simp only [Lexeme.State.endsWord, Bool.or_eq_false_iff, beq_eq_false_iff_ne, Option.isSome_eq_false_iff,
    Option.isNone_iff_eq_none] at goes
  have step : Lexeme.State.between.run (c :: (cs ++ rest)) = (Lexeme.State.word [c]).run (cs ++ rest) := by
    simp [Lexeme.State.run, Lexeme.State.step, Lexeme.State.start, goes]
  have whole : word? ([c].reverse ++ cs) = some v := hv
  rw [List.cons_append, step, run_word others hrest whole]

/-! ## Numbers -/

/-- Digits are a number when none follows a leading zero. -/
theorem isNumber_of_digits {c : Char} {cs : List Char} (hd : ∀ x ∈ c :: cs, x.isDigit = true)
    (hzero : c = '0' → cs = []) : isNumber (c :: cs) = true := by
  obtain ⟨hc, hcs⟩ := List.forall_mem_cons.mp hd
  have unsigned : isUnsigned (c :: cs) = true := by
    unfold isUnsigned
    split
    · rename_i h
      obtain ⟨rfl, rfl⟩ := List.cons.inj h
      rw [hzero rfl]
      rfl
    · have all : cs.dropWhile Char.isDigit = [] := List.dropWhile_eq_nil_iff.mpr hcs
      simp only [afterDigits?, hc, if_true, all]
      rfl
  unfold isNumber
  split
  · rename_i h
    obtain ⟨rfl, -⟩ := List.cons.inj h
    cases hc
  · exact unsigned

theorem isNumber_decimal (n : Nat) : isNumber (decimal n).toList = true := by
  have digits : ∀ c ∈ (decimal n).toList, c.isDigit = true := fun _ => isDigit_of_mem_decimal
  have zero : ∀ c ∈ (decimal n).toList.head?, c = '0' → n = 0 := by
    intro c hc h
    rw [decimal, String.toList_ofList] at hc
    rcases Nat.eq_zero_or_pos n with hn | hn
    · exact hn
    · exact absurd h (head_toDigits_ne_zero hn c hc)
  cases hcs : (decimal n).toList with
  | nil => exact absurd hcs (decimal_ne_nil n)
  | cons c cs =>
    rw [hcs] at digits zero
    refine isNumber_of_digits digits fun h => ?_
    rw [zero c rfl h] at hcs
    have single : (decimal 0).toList = ['0'] := by decide
    rw [single] at hcs
    exact (List.cons.inj hcs).2.symm

/-- The digits of a number are no name, and so the number. -/
theorem word?_decimal (n : Nat) : word? (decimal n).toList = some (.ofNat n) := by
  have digits : ∀ c ∈ (decimal n).toList, c.isDigit = true := fun _ => isDigit_of_mem_decimal
  have unnamed : ∀ word : List Char, (∃ c ∈ word, c.isDigit = false) → (decimal n).toList ≠ word := by
    rintro word ⟨c, hc, hnot⟩ rfl
    rw [digits c hc] at hnot
    cases hnot
  have hnull := unnamed ['n', 'u', 'l', 'l'] ⟨'n', by decide⟩
  have htrue := unnamed ['t', 'r', 'u', 'e'] ⟨'t', by decide⟩
  have hfalse := unnamed ['f', 'a', 'l', 's', 'e'] ⟨'f', by decide⟩
  rw [word?, if_neg hnull, if_neg htrue, if_neg hfalse, if_pos (isNumber_decimal n), String.ofList_toList]
  rfl

theorem endsWord_of_isDigit {c : Char} (h : c.isDigit = true) : Lexeme.State.endsWord c = false := by
  have hlt : c.toNat < 128 := by
    have := (toNat_of_isDigit h).2
    omega
  exact ascii_forall (P := fun c => c.isDigit = true → Lexeme.State.endsWord c = false) (by decide) hlt h

theorem spells_decimal (n : Nat) : Spells (decimal n).toList [.word (.ofNat n)] :=
  spells_word (fun _ hc => endsWord_of_isDigit (isDigit_of_mem_decimal hc)) (decimal_ne_nil n) (word?_decimal n)

/-! ## Texts -/

/-- A control is read back from the two digits of its unit. -/
theorem run_escapeUnit {n : Nat} (hn : n < 0x20) (units : List Nat) (rest : List Char) :
    (Lexeme.State.text units).run (escapeUnit n ++ rest) = (Lexeme.State.text (n :: units)).run rest := by
  have zero : digit? 16 '0' = some 0 := by decide
  have high : digit? 16 (Nat.digitChar (n / 16)) = some (n / 16) := digit?_digitChar (Nat.le_refl _) (by omega)
  have low : digit? 16 (Nat.digitChar (n % 16)) = some (n % 16) := digit?_digitChar (Nat.le_refl _) (by omega)
  have value : n / 16 * 16 + n % 16 = n := by omega
  simp [escapeUnit, Lexeme.State.run, Lexeme.State.step, zero, high, low, value]

/-- A character is read back as its code point, however it is written. -/
theorem run_escapeChar (c : Char) (units : List Nat) (rest : List Char) :
    (Lexeme.State.text units).run (escapeChar c ++ rest) = (Lexeme.State.text (c.toNat :: units)).run rest := by
  unfold escapeChar
  split
  · simp [Lexeme.State.run, Lexeme.State.step, escape?]
  · simp [Lexeme.State.run, Lexeme.State.step, escape?]
  · simp [Lexeme.State.run, Lexeme.State.step, escape?]
  · simp [Lexeme.State.run, Lexeme.State.step, escape?]
  · simp [Lexeme.State.run, Lexeme.State.step, escape?]
  · simp [Lexeme.State.run, Lexeme.State.step, escape?]
  · simp [Lexeme.State.run, Lexeme.State.step, escape?]
  · rename_i hquote hbackslash _ _ _ _ _
    have hquote : c ≠ '\x22' := hquote
    have hbackslash : c ≠ '\\' := hbackslash
    split
    · rename_i hcontrol
      exact run_escapeUnit hcontrol units rest
    · rename_i hcontrol
      simp [Lexeme.State.run, Lexeme.State.step, hquote, hbackslash, hcontrol]

theorem run_text (cs : List Char) (units : List Nat) (rest : List Char) :
    (Lexeme.State.text units).run (cs.flatMap escapeChar ++ rest)
      = (Lexeme.State.text ((cs.map Char.toNat).reverse ++ units)).run rest := by
  induction cs generalizing units with
  | nil => simp
  | cons c cs ih =>
    rw [List.flatMap_cons, List.append_assoc, run_escapeChar, ih]
    simp

/-- No character is half of a surrogate pair. -/
theorem not_surrogate (c : Char) : isHigh c.toNat = false ∧ isLow c.toNat = false := by
  have valid : c.toNat < 0xD800 ∨ (0xDFFF < c.toNat ∧ c.toNat < 0x110000) := c.valid
  simp only [isHigh, isLow, Bool.and_eq_false_iff, decide_eq_false_iff_not]
  omega

theorem pairUp_toNat (cs : List Char) : pairUp (cs.map Char.toNat) = some cs := by
  induction cs with
  | nil => rfl
  | cons c cs ih =>
    obtain ⟨high, low⟩ := not_surrogate c
    cases cs with
    | nil => simp [pairUp, high, low]
    | cons d cs =>
      rw [List.map_cons] at ih
      simp [pairUp, high, low, ih]

theorem spells_printText (s : String) : Spells (printText (some s)) [.text (some s)] := by
  intro rest _
  have opening (cs : List Char) : Lexeme.State.between.run ('\x22' :: cs) = (Lexeme.State.text []).run cs := by
    simp [Lexeme.State.run, Lexeme.State.step, Lexeme.State.start]
  have closing (units : List Nat) : (Lexeme.State.text units).run ('\x22' :: rest)
      = (Lexeme.State.between.run rest).map ([.text ((pairUp units.reverse).map .ofList)] ++ ·) := by
    simp [Lexeme.State.run, Lexeme.State.step]
  rw [printText, List.cons_append, opening, List.append_assoc, List.singleton_append, run_text, closing,
    List.append_nil, List.reverse_reverse, Option.getD_some, pairUp_toNat, Option.map_some, String.ofList_toList]

/-! ## Values -/

namespace Value

mutual

/-- The lexemes that a value is written as. -/
def lexemes : Value → List Lexeme
  | .null => [.word .null]
  | .flag b => [.word (.flag b)]
  | .number numeral => [.word (.number numeral)]
  | .text content => [.text content]
  | .array items => .openArray :: (itemLexemes items ++ [.closeArray])
  | .object members => .openObject :: (memberLexemes members ++ [.closeObject])

def itemLexemes : List Value → List Lexeme
  | [] => []
  | [v] => v.lexemes
  | v :: w :: more => v.lexemes ++ .comma :: itemLexemes (w :: more)

def memberLexemes : List (Option String × Value) → List Lexeme
  | [] => []
  | [(key, v)] => .text key :: .colon :: v.lexemes
  | (key, v) :: m :: more => .text key :: .colon :: (v.lexemes ++ .comma :: memberLexemes (m :: more))

end

/-- A value whose numbers are natural and whose texts and keys are there. -/
inductive Plain : Value → Prop
  | null : Plain .null
  | flag (b : Bool) : Plain (.flag b)
  | number (n : Nat) : Plain (.ofNat n)
  | text (s : String) : Plain (.ofText s)
  | array {items : List Value} (h : ∀ v ∈ items, Plain v) : Plain (.array items)
  | object {members : List (String × Value)} (h : ∀ m ∈ members, Plain m.2) : Plain (.ofMembers members)

/-! ### Spelling -/

theorem spells_itemChars {items : List Value} (h : ∀ v ∈ items, Spells v.chars v.lexemes) :
    Spells (itemChars items) (itemLexemes items) := by
  induction items with
  | nil => exact .nil
  | cons v items ih =>
    obtain ⟨first, others⟩ := List.forall_mem_cons.mp h
    cases items with
    | nil =>
      rw [itemChars, itemLexemes]
      exact first
    | cons w more =>
      rw [itemChars, itemLexemes]
      exact .around rfl first (ih others)

theorem spells_memberChars {members : List (String × Value)} (h : ∀ m ∈ members, Spells m.2.chars m.2.lexemes) :
    Spells (memberChars (members.map fun (key, v) => (some key, v)))
      (memberLexemes (members.map fun (key, v) => (some key, v))) := by
  induction members with
  | nil => exact .nil
  | cons m members ih =>
    obtain ⟨first, others⟩ := List.forall_mem_cons.mp h
    obtain ⟨key, v⟩ := m
    have member : Spells (printText (some key) ++ ':' :: v.chars) ([.text (some key)] ++ .colon :: v.lexemes) :=
      .around rfl (spells_printText key) first
    cases members with
    | nil =>
      simp only [List.map_cons, List.map_nil, memberChars, memberLexemes]
      exact member
    | cons m more =>
      have both := Spells.around (c := ',') rfl member (ih others)
      simp only [List.map_cons, memberChars, memberLexemes]
      simpa only [List.map_cons, List.append_assoc, List.cons_append, List.nil_append] using both

/-- Brackets around a spelling. -/
theorem spells_bracketed {c d : Char} {l m : Lexeme} {cs : List Char} {ls : List Lexeme} (hc : mark? c = some l)
    (hd : mark? d = some m) (h : Spells cs ls) : Spells (c :: (cs ++ [d])) (l :: (ls ++ [m])) :=
  .around hc .nil (.around hd h .nil)

theorem spells_chars {v : Value} (h : v.Plain) : Spells v.chars v.lexemes := by
  induction h with
  | null => exact spells_word (by simp [chars, Lexeme.State.endsWord, isBlank, mark?]) (by decide) rfl
  | flag b =>
    cases b with
    | false => exact spells_word (by simp [chars, Lexeme.State.endsWord, isBlank, mark?]) (by decide) rfl
    | true => exact spells_word (by simp [chars, Lexeme.State.endsWord, isBlank, mark?]) (by decide) rfl
  | number n => exact spells_decimal n
  | text s => exact spells_printText s
  | array _ ih =>
    rw [chars, lexemes]
    exact spells_bracketed rfl rfl (spells_itemChars ih)
  | object _ ih =>
    rw [ofMembers, chars, lexemes]
    exact spells_bracketed rfl rfl (spells_memberChars ih)

/-! ### Spelling on several lines -/

theorem spells_itemLines {depth : Nat} {items : List Value} (h : ∀ v ∈ items, Spells (v.lineChars depth) v.lexemes) :
    Spells (itemLines depth items) (itemLexemes items) := by
  induction items with
  | nil => exact .nil
  | cons v items ih =>
    obtain ⟨first, others⟩ := List.forall_mem_cons.mp h
    cases items with
    | nil =>
      rw [itemLines, itemLexemes]
      exact first.newLine_append depth
    | cons w more =>
      rw [itemLines, itemLexemes]
      exact .around rfl (first.newLine_append depth) (ih others)

theorem spells_memberLines {depth : Nat} {members : List (String × Value)}
    (h : ∀ m ∈ members, Spells (m.2.lineChars depth) m.2.lexemes) :
    Spells (memberLines depth (members.map fun (key, v) => (some key, v)))
      (memberLexemes (members.map fun (key, v) => (some key, v))) := by
  induction members with
  | nil => exact .nil
  | cons m members ih =>
    obtain ⟨first, others⟩ := List.forall_mem_cons.mp h
    obtain ⟨key, v⟩ := m
    have member : Spells (newLine depth ++ printText (some key) ++ ':' :: ' ' :: v.lineChars depth)
        ([.text (some key)] ++ .colon :: v.lexemes) :=
      .around rfl ((spells_printText key).newLine_append depth) (.parted rfl .nil first)
    cases members with
    | nil =>
      simp only [List.map_cons, List.map_nil, memberLines, memberLexemes]
      exact member
    | cons m more =>
      have both := Spells.around (c := ',') rfl member (ih others)
      simp only [List.map_cons, memberLines, memberLexemes]
      simpa only [List.map_cons, List.append_assoc, List.cons_append, List.nil_append] using both

theorem spells_lineChars {v : Value} (h : v.Plain) (depth : Nat) : Spells (v.lineChars depth) v.lexemes := by
  induction h generalizing depth with
  | null => exact spells_chars .null
  | flag b => exact spells_chars (.flag b)
  | number n => exact spells_chars (.number n)
  | text s => exact spells_chars (.text s)
  | @array items _ ih =>
    rw [lexemes]
    cases items with
    | nil => exact spells_bracketed rfl rfl .nil
    | cons v items =>
      rw [lineChars]
      exact spells_bracketed rfl rfl ((spells_itemLines fun w hw => ih w hw (depth + 1)).append_newLine depth)
  | @object members _ ih =>
    rw [ofMembers, lexemes]
    cases members with
    | nil => exact spells_bracketed rfl rfl .nil
    | cons m members =>
      have lines := spells_memberLines fun m' hm' => ih m' hm' (depth + 1)
      rw [List.map_cons] at lines ⊢
      rw [lineChars]
      exact spells_bracketed rfl rfl (lines.append_newLine depth)

end Value

/-! ### Reading -/

namespace Reader

/-- The first lexeme of a value does not close an array. -/
theorem run_inArray (v : Value) (items : List Value) (stack : List Frame) (ls : List Lexeme) :
    (inArray stack).run (Value.itemLexemes (v :: items) ++ ls)
      = (beforeValue (.array [] :: stack)).run (Value.itemLexemes (v :: items) ++ ls) := by
  have first (more : List Lexeme) :
      (inArray stack).run (v.lexemes ++ more) = (beforeValue (.array [] :: stack)).run (v.lexemes ++ more) := by
    cases v with
    | null => rfl
    | flag b => rfl
    | number numeral => rfl
    | text content => rfl
    | array items => rfl
    | object members => rfl
  cases items with
  | nil => exact first ls
  | cons w items =>
    rw [Value.itemLexemes, List.append_assoc]
    exact first _

theorem run_items {v : Value} {items done : List Value}
    (h : ∀ w ∈ v :: items, ∀ stack ls, (beforeValue stack).run (w.lexemes ++ ls) = (place w stack).run ls)
    (stack : List Frame) (ls : List Lexeme) :
    (beforeValue (.array done :: stack)).run (Value.itemLexemes (v :: items) ++ .closeArray :: ls)
      = (place (.array (done.reverse ++ v :: items)) stack).run ls := by
  induction items generalizing v done with
  | nil =>
    rw [Value.itemLexemes, h v List.mem_cons_self]
    show (place (.array (v :: done).reverse) stack).run ls = _
    rw [List.reverse_cons]
  | cons w items ih =>
    obtain ⟨first, others⟩ := List.forall_mem_cons.mp h
    rw [Value.itemLexemes, List.append_assoc, first]
    show (beforeValue (.array (v :: done) :: stack)).run (Value.itemLexemes (w :: items) ++ .closeArray :: ls) = _
    rw [ih others, List.reverse_cons, List.append_assoc, List.singleton_append]

theorem run_members {key : Option String} {v : Value} {members done : List (Option String × Value)}
    (h : ∀ m ∈ (key, v) :: members, ∀ stack ls, (beforeValue stack).run (m.2.lexemes ++ ls) = (place m.2 stack).run ls)
    (canEnd : Bool) (stack : List Frame) (ls : List Lexeme) :
    (beforeKey done canEnd stack).run (Value.memberLexemes ((key, v) :: members) ++ .closeObject :: ls)
      = (place (.object (done.reverse ++ (key, v) :: members)) stack).run ls := by
  induction members generalizing key v done canEnd with
  | nil =>
    rw [Value.memberLexemes]
    show (beforeValue (.object done key :: stack)).run (v.lexemes ++ .closeObject :: ls) = _
    rw [h (key, v) List.mem_cons_self]
    show (place (.object ((key, v) :: done).reverse) stack).run ls = _
    rw [List.reverse_cons]
  | cons m members ih =>
    obtain ⟨first, others⟩ := List.forall_mem_cons.mp h
    rw [Value.memberLexemes]
    show (beforeValue (.object done key :: stack)).run ((v.lexemes ++ .comma :: Value.memberLexemes (m :: members)) ++ _) = _
    rw [List.append_assoc, first]
    show (beforeKey ((key, v) :: done) false stack).run (Value.memberLexemes (m :: members) ++ .closeObject :: ls) = _
    rw [ih others, List.reverse_cons, List.append_assoc, List.singleton_append]

/-- The reader puts a value in its place, whatever is open around it. -/
theorem run_lexemes {v : Value} (h : v.Plain) (stack : List Frame) (ls : List Lexeme) :
    (beforeValue stack).run (v.lexemes ++ ls) = (place v stack).run ls := by
  induction h generalizing stack ls with
  | null => rfl
  | flag b => rfl
  | number n => rfl
  | text s => rfl
  | @array items _ ih =>
    rw [Value.lexemes, List.cons_append, List.append_assoc]
    show (inArray stack).run (Value.itemLexemes items ++ ([.closeArray] ++ ls)) = _
    cases items with
    | nil => rfl
    | cons v items =>
      rw [run_inArray, List.singleton_append, run_items ih]
      rfl
  | @object members _ ih =>
    rw [Value.ofMembers, Value.lexemes, List.cons_append, List.append_assoc]
    show (beforeKey [] true stack).run (Value.memberLexemes _ ++ ([.closeObject] ++ ls)) = _
    cases members with
    | nil => rfl
    | cons m members =>
      rw [List.singleton_append]
      refine run_members (fun m' hm' => ?_) true stack ls
      replace hm' : m' ∈ (m :: members).map fun (key, v) => (some key, v) := hm'
      obtain ⟨m, hm, rfl⟩ := List.mem_map.mp hm'
      exact ih m hm

end Reader

/-- A plain value is read from a text that spells it. -/
theorem parse?_of_spells {v : Value} (h : v.Plain) {cs : List Char} (spelled : Spells cs v.lexemes) :
    Value.parse? (.ofList cs) = some v := by
  have all := spelled [] (by rintro c ⟨⟩)
  have read := Reader.run_lexemes h [] []
  rw [List.append_nil] at all read
  have lexed : lexemes? cs = some v.lexemes := by
    rw [lexemes?, all]
    simp [Lexeme.State.run, Lexeme.State.finish]
  rw [Value.parse?, String.toList_ofList, lexed]
  show ((Reader.beforeValue []).run v.lexemes).bind _ = _
  rw [read]
  rfl

/-- A plain value is read back from its text. -/
theorem parse?_print {v : Value} (h : v.Plain) : Value.parse? v.print = some v :=
  parse?_of_spells h (Value.spells_chars h)

/-- So it is from its text on several lines, the last of which may be ended. -/
theorem parse?_printLines {v : Value} (h : v.Plain) :
    Value.parse? v.printLines = some v ∧ Value.parse? (v.printLines ++ "\n") = some v := by
  have spelled := Value.spells_lineChars h 0
  have ended : v.printLines ++ "\n" = .ofList (v.lineChars 0 ++ Value.newLine 0) := by
    rw [Value.printLines, String.ofList_append]
    rfl
  exact ⟨parse?_of_spells h spelled, ended ▸ parse?_of_spells h (spelled.append_newLine 0)⟩

end Pagemark.Json
