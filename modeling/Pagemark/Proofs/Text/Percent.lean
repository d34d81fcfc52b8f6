/-
  Pagemark.Proofs.Text.Percent — what percent-encoding writes.

  A written text holds kept characters, percent signs, and letters and digits of ASCII, so a
  class of characters that has all of these holds every written text (`mem_encode`), and a text
  of kept characters is written as it is.

  Decoding looks two bytes ahead of a percent sign. A text may be written in several ways that
  decoding cannot tell apart, as long as percent signs and digits stand for themselves
  (`Writing`).

  Proved: `decode_escapes` — escaped bytes are read back, whatever follows them;
  `decode_writing` — what is read does not depend on the way of writing; `mem_encode`,
  `encode_of_kept`.
-/

import Pagemark.Proofs.Text.Utf8
import Pagemark.Text.Percent

namespace Pagemark.Text

/-! ## ASCII -/

theorem ascii_forall {P : Char → Prop} (h : ∀ n : Fin 128, P (Char.ofNat n)) {c : Char} (hc : c.toNat < 128) : P c := by
  have hp := h ⟨c.toNat, hc⟩
  rwa [Char.ofNat_toNat] at hp

theorem toNat_lt_of_isAlphanum {c : Char} (h : c.isAlphanum = true) : c.toNat < 128 := by
  have htop : c.val.toNat ≤ 122 := by
    rcases Bool.or_eq_true_iff.mp h with h | hdigit
    · rcases Bool.or_eq_true_iff.mp h with hupper | hlower
      · exact Nat.le_trans (of_decide_eq_true hupper).2 (by decide)
      · exact of_decide_eq_true (Bool.and_eq_true_iff.mp hlower).2
    · exact Nat.le_trans (of_decide_eq_true (Bool.and_eq_true_iff.mp hdigit).2 : c.val ≤ '9'.val) (by decide)
  exact Nat.lt_of_le_of_lt htop (by decide)

theorem isAlphanum_of_isDigit {c : Char} (h : c.isDigit = true) : c.isAlphanum = true := by
  rw [Char.isAlphanum, h, Bool.or_true]

theorem ne_of_isAlphanum {c x : Char} (h : c.isAlphanum = true) (hx : x.isAlphanum = false) : c ≠ x := by
  rintro rfl
  rw [h] at hx
  cases hx

namespace Percent

/-! ## Escapes read back -/

theorem hexDigit_spec :
    ∀ n : Fin 16, (hexDigit n).isAlphanum = true ∧ hexValue? (UInt8.ofNat (hexDigit n).toNat) = some n.val ∧
      (hexDigit n).toNat < 0x80 := by
  decide

theorem decode_cons_of_ne {b : UInt8} (h : b ≠ 0x25) (bs : List UInt8) : decode (b :: bs) = b :: decode bs := by
  rcases bs with _ | ⟨x, _ | ⟨y, bs⟩⟩
  · rfl
  · rfl
  · simp [decode, h]

theorem encode_ascii {c : Char} (h : c.toNat < 0x80) : String.utf8EncodeChar c = [UInt8.ofNat c.toNat] := by
  have hle : c.val.toNat ≤ 0x7f := Nat.le_of_lt_succ h
  exact if_pos hle

theorem utf8_cons_ascii {c : Char} (h : c.toNat < 0x80) (cs : List Char) :
    Utf8.encode (c :: cs) = UInt8.ofNat c.toNat :: Utf8.encode cs := by
  show String.utf8EncodeChar c ++ Utf8.encode cs = _
  rw [encode_ascii h]
  rfl

theorem byte_ne_percent {c : Char} (hascii : c.toNat < 0x80) (h : c ≠ '%') : UInt8.ofNat c.toNat ≠ 0x25 := by
  intro e
  have := congrArg UInt8.toNat e
  rw [Utf8.toNat_byte (by omega)] at this
  exact h (Char.toNat_inj.mp this)

theorem decode_escape (b : UInt8) (bs : List UInt8) : decode (Utf8.encode (escape b) ++ bs) = b :: decode bs := by
  have hb : b.toNat < 256 := b.toNat_lt
  obtain ⟨-, high, highAscii⟩ := hexDigit_spec ⟨b.toNat / 16, by omega⟩
  obtain ⟨-, low, lowAscii⟩ := hexDigit_spec ⟨b.toNat % 16, by omega⟩
  have bytes : Utf8.encode (escape b) = [0x25, UInt8.ofNat (hexDigit (b.toNat / 16)).toNat,
      UInt8.ofNat (hexDigit (b.toNat % 16)).toNat] := by
    unfold escape
    rw [utf8_cons_ascii (by decide), utf8_cons_ascii highAscii, utf8_cons_ascii lowAscii]
    rfl
  simp only [bytes, List.cons_append, List.nil_append, decode, if_true, high, low]
  rw [show 16 * (b.toNat / 16) + b.toNat % 16 = b.toNat by omega, UInt8.ofNat_toNat]

theorem decode_escapes (bytes rest : List UInt8) :
    decode (Utf8.encode (bytes.flatMap escape) ++ rest) = bytes ++ decode rest := by
  induction bytes with
  | nil => rfl
  | cons b bytes ih =>
    rw [List.flatMap_cons, Utf8.encode_append, List.append_assoc, decode_escape, ih]
    rfl

/-- Text of ASCII without percent signs is decoded as it is. -/
theorem decode_of_no_percent {cs : List Char} (h : ∀ c ∈ cs, c.toNat < 0x80 ∧ c ≠ '%') :
    decode (Utf8.encode cs) = Utf8.encode cs := by
  induction cs with
  | nil => rfl
  | cons c cs ih =>
    obtain ⟨⟨hascii, hpercent⟩, hcs⟩ := List.forall_mem_cons.mp h
    rw [utf8_cons_ascii hascii, decode_cons_of_ne (byte_ne_percent hascii hpercent), ih hcs]

/-! ## Written characters -/

/-- The characters of an escaped byte are a percent sign and two digits. -/
theorem mem_escape {b : UInt8} {c : Char} (h : c ∈ escape b) : c = '%' ∨ c.isAlphanum = true := by
  have hb : b.toNat < 256 := b.toNat_lt
  simp only [escape, List.mem_cons, List.not_mem_nil, or_false] at h
  rcases h with rfl | rfl | rfl
  · exact Or.inl rfl
  · exact Or.inr (hexDigit_spec ⟨b.toNat / 16, by omega⟩).1
  · exact Or.inr (hexDigit_spec ⟨b.toNat % 16, by omega⟩).1

/-- What is written for a character is the character, if it is kept, or escapes. -/
theorem mem_encodeChar {keep : Char → Bool} {c x : Char} (h : x ∈ encodeChar keep c) :
    (x = c ∧ keep c = true ∧ c.toNat < 0x80) ∨ x = '%' ∨ x.isAlphanum = true := by
  unfold encodeChar at h
  split at h
  · rename_i hk
    simp only [Bool.and_eq_true, decide_eq_true_eq] at hk
    exact Or.inl ⟨List.mem_singleton.mp h, hk.2, hk.1⟩
  · obtain ⟨b, -, hx⟩ := List.mem_flatMap.mp h
    exact Or.inr (mem_escape hx)

/-- The characters of a written text. -/
theorem mem_encode {keep : Char → Bool} {cs : List Char} {x : Char} (h : x ∈ encode keep cs) :
    (x ∈ cs ∧ keep x = true ∧ x.toNat < 0x80) ∨ x = '%' ∨ x.isAlphanum = true := by
  obtain ⟨c, hc, hx⟩ := List.mem_flatMap.mp h
  rcases mem_encodeChar hx with ⟨rfl, hkeep, hascii⟩ | hx
  · exact Or.inl ⟨hc, hkeep, hascii⟩
  · exact Or.inr hx

/-- Something is written for every character. -/
theorem encode_ne_nil {keep : Char → Bool} {cs : List Char} (h : cs ≠ []) : encode keep cs ≠ [] := by
  obtain ⟨c, cs, rfl⟩ := List.exists_cons_of_ne_nil h
  rw [encode, List.flatMap_cons, encodeChar]
  split
  · exact List.cons_ne_nil _ _
  · obtain ⟨b, bs, hbytes⟩ := List.exists_cons_of_ne_nil (String.utf8EncodeChar_ne_nil (c := c))
    rw [hbytes]
    exact List.cons_ne_nil _ _

theorem encode_of_kept {keep : Char → Bool} {cs : List Char} (h : ∀ c ∈ cs, c.toNat < 0x80 ∧ keep c = true) :
    encode keep cs = cs := by
  induction cs with
  | nil => rfl
  | cons c cs ih =>
    obtain ⟨⟨hascii, hkeep⟩, hcs⟩ := List.forall_mem_cons.mp h
    have hc : encodeChar keep c = [c] := by simp [encodeChar, hascii, hkeep]
    rw [encode, List.flatMap_cons, hc]
    exact congrArg (c :: ·) (ih hcs)

/-! ## Ways of writing -/

/-- A digit of an escape. -/
def IsHex (c : Char) : Prop := (digit? 16 c).isSome = true

instance (c : Char) : Decidable (IsHex c) := inferInstanceAs (Decidable (_ = true))

theorem isAlphanum_of_isHex {c : Char} (h : IsHex c) : c.isAlphanum = true := by
  have hascii : c.toNat < 128 := by
    obtain ⟨d, hd⟩ := Option.isSome_iff_exists.mp h
    unfold digit? at hd
    obtain ⟨hd, -⟩ := Option.filter_eq_some_iff.mp hd
    split at hd
    · rename_i hrange
      simp only [Bool.and_eq_true, decide_eq_true_eq] at hrange
      omega
    split at hd
    · rename_i hrange
      simp only [Bool.and_eq_true, decide_eq_true_eq] at hrange
      omega
    split at hd
    · rename_i hrange
      simp only [Bool.and_eq_true, decide_eq_true_eq] at hrange
      omega
    · cases hd
  exact ascii_forall (P := fun c => IsHex c → c.isAlphanum = true) (by decide) hascii h

theorem hexValue?_byte {c : Char} (h : c.toNat < 0x80) : hexValue? (UInt8.ofNat c.toNat) = digit? 16 c := by
  rw [hexValue?, Utf8.toNat_byte (by omega), Char.ofNat_toNat]

theorem hexValue?_of_le {b : UInt8} (h : 0x80 ≤ b.toNat) : hexValue? b = none := by
  have hlt : b.toNat < 256 := b.toNat_lt
  have hvalid : b.toNat.isValidChar := Or.inl (by omega)
  have hchar : (Char.ofNat b.toNat).toNat = b.toNat := by
    unfold Char.ofNat
    rw [dif_pos hvalid]
    rfl
  rw [← Option.not_isSome_iff_eq_none]
  intro hhex
  have hascii := toNat_lt_of_isAlphanum (isAlphanum_of_isHex hhex)
  rw [hchar] at hascii
  omega

/-- A way of writing characters as bytes. Percent signs and digits stand for themselves; any other
character begins with no digit, and its bytes are read as its `value`, whatever follows. -/
structure Writing (write value : Char → List UInt8) : Prop where
  kept : ∀ {c}, c = '%' ∨ IsHex c → write c = [UInt8.ofNat c.toNat]
  head : ∀ {c}, c ≠ '%' → ¬ IsHex c → ∃ b bs, write c = b :: bs ∧ hexValue? b = none
  read : ∀ {c}, c ≠ '%' → ¬ IsHex c → ∀ rest, decode (write c ++ rest) = value c ++ decode rest

/-- Two digits and what follows them. -/
def BeginsEscape (cs : List Char) : Prop := ∃ x y rest, cs = x :: y :: rest ∧ IsHex x ∧ IsHex y

section Writing

variable {f g value : Char → List UInt8}

theorem Writing.head_of_not_isHex (hf : Writing f value) {c : Char} (h : ¬ IsHex c) :
    ∃ b bs, f c = b :: bs ∧ hexValue? b = none := by
  by_cases hc : c = '%'
  · exact ⟨_, _, hf.kept (Or.inl hc), by rw [hc]; rfl⟩
  · exact hf.head hc h

/-- A percent sign with two digits behind it. -/
theorem Writing.decode_escape (hf : Writing f value) {x y : Char} {a b : Nat} (hx : digit? 16 x = some a)
    (hy : digit? 16 y = some b) (rest : List Char) :
    decode (('%' :: x :: y :: rest).flatMap f) = UInt8.ofNat (16 * a + b) :: decode (rest.flatMap f) := by
  have hexX : IsHex x := by rw [IsHex, hx]; rfl
  have hexY : IsHex y := by rw [IsHex, hy]; rfl
  have byteX := hexValue?_byte (toNat_lt_of_isAlphanum (isAlphanum_of_isHex hexX))
  have byteY := hexValue?_byte (toNat_lt_of_isAlphanum (isAlphanum_of_isHex hexY))
  simp only [List.flatMap_cons, hf.kept (Or.inl rfl), hf.kept (Or.inr hexX), hf.kept (Or.inr hexY),
    List.singleton_append]
  show decode (0x25 :: _) = _
  simp only [decode, if_true, byteX, byteY, hx, hy]

/-- A percent sign with anything else behind it. -/
theorem Writing.decode_percent (hf : Writing f value) {cs : List Char} (h : ¬ BeginsEscape cs) :
    decode (('%' :: cs).flatMap f) = 0x25 :: decode (cs.flatMap f) := by
  have single : ∀ {bs : List UInt8}, (∀ b c rest, bs = b :: c :: rest → hexValue? b = none ∨ hexValue? c = none) →
      decode (0x25 :: bs) = 0x25 :: decode bs := by
    intro bs hbs
    rcases bs with _ | ⟨b, _ | ⟨c, rest⟩⟩
    · rfl
    · rfl
    · rcases hbs b c rest rfl with hb | hc
      · simp only [decode, if_true, hb]
      · cases hb : hexValue? b with
        | none => simp only [decode, if_true, hb]
        | some a => simp only [decode, if_true, hb, hc]
  rw [List.flatMap_cons, hf.kept (Or.inl rfl)]
  refine single fun b c rest hbytes => ?_
  cases cs with
  | nil => cases hbytes
  | cons x cs =>
    by_cases hx : IsHex x
    · -- The first digit is written as one byte, so that the second byte is the first one of what follows.
      rw [List.flatMap_cons, hf.kept (Or.inr hx), List.singleton_append] at hbytes
      have hbytes := (List.cons.inj hbytes).2
      cases cs with
      | nil => cases hbytes
      | cons y cs =>
        have hy : ¬ IsHex y := fun hy => h ⟨x, y, cs, rfl, hx, hy⟩
        obtain ⟨head, tail, hwrite, hhead⟩ := hf.head_of_not_isHex hy
        rw [List.flatMap_cons, hwrite, List.cons_append] at hbytes
        rw [← (List.cons.inj hbytes).1]
        exact Or.inr hhead
    · obtain ⟨head, tail, hwrite, hhead⟩ := hf.head_of_not_isHex hx
      rw [List.flatMap_cons, hwrite, List.cons_append] at hbytes
      rw [← (List.cons.inj hbytes).1]
      exact Or.inl hhead

/-- What is read of a text does not depend on the way it is written. -/
theorem decode_writing (hf : Writing f value) (hg : Writing g value) (cs : List Char) :
    decode (cs.flatMap f) = decode (cs.flatMap g) := by
  -- On the length: an escape takes three characters at once.
  induction hn : cs.length using Nat.strongRecOn generalizing cs with
  | ind n ih =>
    subst hn
    cases cs with
    | nil => rfl
    | cons c cs =>
      by_cases hc : c = '%'
      · subst hc
        by_cases hescape : BeginsEscape cs
        · obtain ⟨x, y, rest, rfl, hx, hy⟩ := hescape
          obtain ⟨a, ha⟩ := Option.isSome_iff_exists.mp hx
          obtain ⟨b, hb⟩ := Option.isSome_iff_exists.mp hy
          rw [hf.decode_escape ha hb, hg.decode_escape ha hb, ih rest.length (by simp; omega) rest rfl]
        · rw [hf.decode_percent hescape, hg.decode_percent hescape, ih cs.length (by simp) cs rfl]
      · have hcs := ih cs.length (by simp) cs rfl
        rw [List.flatMap_cons, List.flatMap_cons]
        by_cases hhex : IsHex c
        · have hne := byte_ne_percent (toNat_lt_of_isAlphanum (isAlphanum_of_isHex hhex)) hc
          rw [hf.kept (Or.inr hhex), hg.kept (Or.inr hhex), List.singleton_append, List.singleton_append,
            decode_cons_of_ne hne, decode_cons_of_ne hne, hcs]
        · rw [hf.read hc hhex, hg.read hc hhex, hcs]

end Writing

/-- The bytes of a character that is no percent sign are read as they are. -/
theorem decode_char {c : Char} (h : c ≠ '%') (rest : List UInt8) :
    decode (String.utf8EncodeChar c ++ rest) = String.utf8EncodeChar c ++ decode rest := by
  have bytes : ∀ {bs : List UInt8}, (∀ b ∈ bs, b ≠ 0x25) → decode (bs ++ rest) = bs ++ decode rest := by
    intro bs hbs
    induction bs with
    | nil => rfl
    | cons b bs ih =>
      obtain ⟨hb, hbs⟩ := List.forall_mem_cons.mp hbs
      rw [List.cons_append, decode_cons_of_ne hb, ih hbs, List.cons_append]
  refine bytes fun b hb => ?_
  by_cases hascii : c.toNat < 0x80
  · rw [encode_ascii hascii, List.mem_singleton] at hb
    rw [hb]
    exact byte_ne_percent hascii h
  · have hle := Utf8.le_of_mem_char (Nat.le_of_not_lt hascii) b hb
    rintro rfl
    exact absurd hle (by decide)

theorem head_char {c : Char} (h : ¬ IsHex c) : ∃ b bs, String.utf8EncodeChar c = b :: bs ∧ hexValue? b = none := by
  by_cases hascii : c.toNat < 0x80
  · refine ⟨_, _, encode_ascii hascii, ?_⟩
    rw [hexValue?_byte hascii]
    simpa [IsHex] using h
  · obtain ⟨b, bs, hbytes⟩ := List.exists_cons_of_ne_nil (String.utf8EncodeChar_ne_nil (c := c))
    have hb : b ∈ String.utf8EncodeChar c := by rw [hbytes]; exact List.mem_cons_self
    exact ⟨b, bs, hbytes, hexValue?_of_le (Utf8.le_of_mem_char (Nat.le_of_not_lt hascii) b hb)⟩

end Percent

end Pagemark.Text
