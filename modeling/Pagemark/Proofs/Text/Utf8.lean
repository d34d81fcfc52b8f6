/-
  Pagemark.Proofs.Text.Utf8 — UTF-8 read back.

  Proved: `decode_encode` — the bytes of a text are read as that text; so they determine it
  (`encode_injective`), and there are as many of them as the text says (`length_encode`).
-/

import Pagemark.Text.Utf8

namespace Pagemark.Text.Utf8

theorem toNat_byte {n : Nat} (h : n < 256) : (UInt8.ofNat n).toNat = n := by
  simp [Nat.mod_eq_of_lt h]

theorem decodeFrom_ascii {b : UInt8} (h : b.toNat < 0x80) (bs : List UInt8) :
    decodeFrom .start (b :: bs) = Char.ofNat b.toNat :: decodeFrom .start bs := by
  simp [decodeFrom, step, first, h]

theorem decodeFrom_first_of_two {b : UInt8} (low : 0xC2 ≤ b.toNat) (high : b.toNat < 0xE0) (bs : List UInt8) :
    decodeFrom .start (b :: bs) = decodeFrom (.within (b.toNat - 0xC0) 1 0x80 0xBF) bs := by
  have h1 : ¬ b.toNat < 0x80 := by omega
  have h2 : ¬ b.toNat < 0xC2 := by omega
  simp only [decodeFrom, step, first, h1, h2, high, if_true, if_false, List.nil_append]

theorem decodeFrom_first_of_three {b : UInt8} (low : 0xE0 ≤ b.toNat) (high : b.toNat < 0xF0) (bs : List UInt8) :
    decodeFrom .start (b :: bs) = decodeFrom (.within (b.toNat - 0xE0) 2
      (if b.toNat = 0xE0 then 0xA0 else 0x80) (if b.toNat = 0xED then 0x9F else 0xBF)) bs := by
  have h1 : ¬ b.toNat < 0x80 := by omega
  have h2 : ¬ b.toNat < 0xC2 := by omega
  have h3 : ¬ b.toNat < 0xE0 := by omega
  simp only [decodeFrom, step, first, h1, h2, h3, if_false]
  by_cases h : b.toNat = 0xE0
  · simp [h]
  by_cases h' : b.toNat = 0xED
  · simp [h']
  simp [h, h', high]

theorem decodeFrom_first_of_four {b : UInt8} (low : 0xF0 ≤ b.toNat) (high : b.toNat ≤ 0xF4) (bs : List UInt8) :
    decodeFrom .start (b :: bs) = decodeFrom (.within (b.toNat - 0xF0) 3
      (if b.toNat = 0xF0 then 0x90 else 0x80) (if b.toNat = 0xF4 then 0x8F else 0xBF)) bs := by
  have h1 : ¬ b.toNat < 0x80 := by omega
  have h2 : ¬ b.toNat < 0xC2 := by omega
  have h3 : ¬ b.toNat < 0xE0 := by omega
  have h4 : ¬ b.toNat = 0xE0 := by omega
  have h5 : ¬ b.toNat = 0xED := by omega
  have h6 : ¬ b.toNat < 0xF0 := by omega
  simp only [decodeFrom, step, first, h1, h2, h3, h4, h5, h6, if_false]
  by_cases h : b.toNat = 0xF0
  · simp [h]
  by_cases h' : b.toNat = 0xF4
  · simp [h']
  have h7 : b.toNat < 0xF4 := by omega
  simp [h, h', h7]

theorem decodeFrom_last {b : UInt8} {value low high : Nat} (hl : low ≤ b.toNat) (hh : b.toNat ≤ high) (bs : List UInt8) :
    decodeFrom (.within value 1 low high) (b :: bs)
      = Char.ofNat (value * 64 + (b.toNat - 0x80)) :: decodeFrom .start bs := by
  simp [decodeFrom, step, hl, hh]

theorem decodeFrom_more {b : UInt8} {value missing low high : Nat} (hl : low ≤ b.toNat) (hh : b.toNat ≤ high)
    (bs : List UInt8) :
    decodeFrom (.within value (missing + 2) low high) (b :: bs)
      = decodeFrom (.within (value * 64 + (b.toNat - 0x80)) (missing + 1) 0x80 0xBF) bs := by
  simp [decodeFrom, step, hl, hh]

/-- A character outside ASCII has no byte of ASCII. -/
theorem le_of_mem_char {c : Char} (h : 0x80 ≤ c.toNat) : ∀ b ∈ String.utf8EncodeChar c, 0x80 ≤ b.toNat := by
  have valid : c.toNat < 0xD800 ∨ 0xDFFF < c.toNat ∧ c.toNat < 0x110000 := c.valid
  have hv : c.val.toNat = c.toNat := rfl
  have byte : ∀ {n : Nat}, 0x80 ≤ n → n < 256 → 0x80 ≤ (UInt8.ofNat n).toNat := by
    intro n low high
    rw [toNat_byte high]
    exact low
  unfold String.utf8EncodeChar
  simp only [hv]
  split
  · omega
  split
  · simp only [List.forall_mem_cons]
    exact ⟨byte (by omega) (by omega), byte (by omega) (by omega), by simp⟩
  split
  · simp only [List.forall_mem_cons]
    exact ⟨byte (by omega) (by omega), byte (by omega) (by omega), byte (by omega) (by omega), by simp⟩
  · simp only [List.forall_mem_cons]
    exact ⟨byte (by omega) (by omega), byte (by omega) (by omega), byte (by omega) (by omega),
      byte (by omega) (by omega), by simp⟩

/-- The bytes of a character are read as that character, whatever follows. -/
theorem decodeFrom_char (c : Char) (bs : List UInt8) :
    decodeFrom .start (String.utf8EncodeChar c ++ bs) = c :: decodeFrom .start bs := by
  have valid : c.toNat < 0xD800 ∨ 0xDFFF < c.toNat ∧ c.toNat < 0x110000 := c.valid
  have hv : c.val.toNat = c.toNat := rfl
  unfold String.utf8EncodeChar
  simp only [hv]
  split
  · rename_i h
    have b0 := toNat_byte (n := c.toNat) (by omega)
    rw [List.singleton_append, decodeFrom_ascii (by omega), b0, Char.ofNat_toNat]
  split
  · have b0 := toNat_byte (n := c.toNat / 64 % 0x20 + 0xc0) (by omega)
    have b1 := toNat_byte (n := c.toNat % 0x40 + 0x80) (by omega)
    simp only [List.cons_append, List.nil_append]
    rw [decodeFrom_first_of_two (by omega) (by omega), decodeFrom_last (by omega) (by omega), b0, b1]
    rw [show (c.toNat / 64 % 0x20 + 0xc0 - 0xc0) * 64 + (c.toNat % 0x40 + 0x80 - 0x80) = c.toNat by omega,
      Char.ofNat_toNat]
  split
  · have b0 := toNat_byte (n := c.toNat / 4096 % 0x10 + 0xe0) (by omega)
    have b1 := toNat_byte (n := c.toNat / 64 % 0x40 + 0x80) (by omega)
    have b2 := toNat_byte (n := c.toNat % 0x40 + 0x80) (by omega)
    simp only [List.cons_append, List.nil_append]
    rw [decodeFrom_first_of_three (by omega) (by omega),
      decodeFrom_more (by split <;> omega) (by split <;> omega), decodeFrom_last (by omega) (by omega), b0, b1, b2]
    rw [show ((c.toNat / 4096 % 0x10 + 0xe0 - 0xe0) * 64 + (c.toNat / 64 % 0x40 + 0x80 - 0x80)) * 64
      + (c.toNat % 0x40 + 0x80 - 0x80) = c.toNat by omega, Char.ofNat_toNat]
  · have b0 := toNat_byte (n := c.toNat / 262144 % 0x08 + 0xf0) (by omega)
    have b1 := toNat_byte (n := c.toNat / 4096 % 0x40 + 0x80) (by omega)
    have b2 := toNat_byte (n := c.toNat / 64 % 0x40 + 0x80) (by omega)
    have b3 := toNat_byte (n := c.toNat % 0x40 + 0x80) (by omega)
    simp only [List.cons_append, List.nil_append]
    rw [decodeFrom_first_of_four (by omega) (by omega),
      decodeFrom_more (by split <;> omega) (by split <;> omega), decodeFrom_more (by omega) (by omega),
      decodeFrom_last (by omega) (by omega), b0, b1, b2, b3]
    rw [show (((c.toNat / 262144 % 0x08 + 0xf0 - 0xf0) * 64 + (c.toNat / 4096 % 0x40 + 0x80 - 0x80)) * 64
      + (c.toNat / 64 % 0x40 + 0x80 - 0x80)) * 64 + (c.toNat % 0x40 + 0x80 - 0x80) = c.toNat by omega,
      Char.ofNat_toNat]

theorem decode_encode (cs : List Char) : decode (encode cs) = cs := by
  induction cs with
  | nil => rfl
  | cons c cs ih =>
    show decodeFrom .start (String.utf8EncodeChar c ++ encode cs) = c :: cs
    rw [decodeFrom_char]
    exact congrArg _ ih

theorem encode_injective {a b : List Char} (h : encode a = encode b) : a = b := by
  rw [← decode_encode a, h, decode_encode b]

@[simp] theorem encode_append (a b : List Char) : encode (a ++ b) = encode a ++ encode b := List.flatMap_append

theorem length_encode (s : String) : (encode s.toList).length = s.utf8ByteSize := by
  rw [← String.size_toByteArray]
  conv => rhs; rw [← String.ofList_toList (s := s), String.toByteArray_ofList]
  simp [List.utf8Encode, encode]

end Pagemark.Text.Utf8
