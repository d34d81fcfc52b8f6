/-
  Pagemark.Proofs.Form — form-urlencoded text read back.

  A written name or value holds none of the characters that have a meaning in the text
  (`isWritten`), so that pairs and their halves come apart where they were joined.

  Escaping a text once more, so that it can stand in a URL, changes nothing of what is read, as
  long as the marks of the text and its escapes are kept.

  Proved: `decode_encode` — a name or value is read back; `parse_print` — all pairs are read
  back, in their order, whatever their names and values; `parse_escaped` — and so are the pairs
  of any text after it is escaped.
-/

import Pagemark.Form
import Pagemark.Proofs.Text.Cut
import Pagemark.Proofs.Text.Percent

namespace Pagemark

open Text

namespace Form

/-! ## Names and values -/

/-- The characters that written names and values consist of. -/
def isWritten (c : Char) : Bool := isPlain c || c == '%' || c == '+'

theorem isWritten_of_isAlphanum {c : Char} (h : c.isAlphanum = true) : isWritten c = true := by
  simp [isWritten, isPlain, h]

theorem isWritten_of_mem_encode {s : String} {c : Char} (h : c ∈ encode s) : isWritten c = true := by
  obtain ⟨x, -, hc⟩ := List.mem_flatMap.mp h
  unfold encodeChar at hc
  split at hc
  · rw [List.mem_singleton.mp hc]; rfl
  · rcases Percent.mem_encodeChar hc with ⟨rfl, hk, -⟩ | rfl | ha
    · simp [isWritten, hk]
    · rfl
    · exact isWritten_of_isAlphanum ha

/-- A plus sign stands for a space. -/
def plusToSpace (c : Char) : Char := if c = '+' then ' ' else c

theorem plusToSpace_of_ne {c : Char} (h : c ≠ '+') : plusToSpace c = c := if_neg h

theorem map_plusToSpace_escapes (bytes : List UInt8) :
    (bytes.flatMap Percent.escape).map plusToSpace = bytes.flatMap Percent.escape := by
  have fixed : ∀ c ∈ bytes.flatMap Percent.escape, plusToSpace c = id c := by
    intro c hc
    obtain ⟨b, -, hb⟩ := List.mem_flatMap.mp hc
    apply plusToSpace_of_ne
    rintro rfl
    rcases Percent.mem_escape hb with h | h
    · exact absurd h (by decide)
    · exact absurd h (by decide)
  rw [List.map_congr_left fixed, List.map_id]

theorem isPlain_spec {c : Char} (h : isPlain c = true) : c ≠ '+' ∧ c ≠ '%' := by
  constructor
  · rintro rfl; exact absurd h (by decide)
  · rintro rfl; exact absurd h (by decide)

/-- What is written for a character is read as its bytes, whatever follows. -/
theorem decode_encodeChar (c : Char) (rest : List UInt8) :
    Percent.decode (Utf8.encode ((encodeChar c).map plusToSpace) ++ rest)
      = String.utf8EncodeChar c ++ Percent.decode rest := by
  unfold encodeChar
  split
  · rename_i h
    subst h
    exact Percent.decode_cons_of_ne (by decide) rest
  unfold Percent.encodeChar
  split
  · rename_i h
    simp only [Bool.and_eq_true, decide_eq_true_eq] at h
    obtain ⟨hplus, hpercent⟩ := isPlain_spec h.2
    have hne : UInt8.ofNat c.toNat ≠ 0x25 := Percent.byte_ne_percent h.1 hpercent
    rw [List.map_singleton, plusToSpace_of_ne hplus, Percent.utf8_cons_ascii h.1, Percent.encode_ascii h.1]
    exact Percent.decode_cons_of_ne hne rest
  · rw [map_plusToSpace_escapes, Percent.decode_escapes]

theorem decode_encode (s : String) : decode (encode s) = s := by
  have bytes : ∀ (cs : List Char) (rest : List UInt8),
      Percent.decode (Utf8.encode ((cs.flatMap encodeChar).map plusToSpace) ++ rest)
        = Utf8.encode cs ++ Percent.decode rest := by
    intro cs
    induction cs with
    | nil => intro rest; rfl
    | cons c cs ih =>
      intro rest
      rw [List.flatMap_cons, List.map_append, Utf8.encode_append, List.append_assoc, decode_encodeChar, ih,
        ← List.append_assoc]
      rfl
  have whole := bytes s.toList []
  rw [List.append_nil, show Percent.decode [] = [] from rfl, List.append_nil] at whole
  show String.ofList (Utf8.decode (Percent.decode (Utf8.encode ((encode s).map plusToSpace)))) = s
  rw [encode, whole, Utf8.decode_encode, String.ofList_toList]

/-! ## Pairs -/

theorem not_mem_encode {c : Char} (h : isWritten c = false) (s : String) : c ∉ encode s := by
  intro hc
  rw [isWritten_of_mem_encode hc] at h
  cases h

theorem mem_pairText {pair : String × String} {c : Char} (h : c ∈ pairText pair) : isWritten c = true ∨ c = '=' := by
  rcases List.mem_append.mp h with h | h
  · exact Or.inl (isWritten_of_mem_encode h)
  · rcases List.mem_cons.mp h with h | h
    · exact Or.inr h
    · exact Or.inl (isWritten_of_mem_encode h)

theorem readPair_pairText (pair : String × String) : readPair (pairText pair) = pair := by
  have hcut : cut '=' (pairText pair) = (encode pair.1, some (encode pair.2)) :=
    cut_append (not_mem_encode (by decide) pair.1) _
  simp only [readPair, hcut, Option.getD_some, decode_encode]

/-- The characters of written pairs. -/
theorem mem_print {pairs : List (String × String)} {c : Char} (h : c ∈ print pairs) :
    isWritten c = true ∨ c = '=' ∨ c = '&' := by
  rcases mem_joined h with h | ⟨piece, hp, hc⟩
  · exact Or.inr (Or.inr h)
  · obtain ⟨pair, -, rfl⟩ := List.mem_map.mp hp
    rcases mem_pairText hc with h | h
    · exact Or.inl h
    · exact Or.inr (Or.inl h)

/-- Pairs are read back as they were written, in their order. -/
theorem parse_print (pairs : List (String × String)) : parse (print pairs) = pairs := by
  by_cases hp : pairs = []
  · subst hp; rfl
  have apart : pieces (· == '&') (print pairs) = pairs.map pairText := by
    refine pieces_joined (by decide) (by simpa using hp) fun piece hpiece c hc => ?_
    obtain ⟨pair, -, rfl⟩ := List.mem_map.mp hpiece
    have hne : c ≠ '&' := by
      rintro rfl
      rcases mem_pairText hc with h | h
      · exact absurd h (by decide)
      · exact absurd h (by decide)
    simpa using hne
  have full : (pairs.map pairText).filter (!·.isEmpty) = pairs.map pairText := by
    refine List.filter_eq_self.mpr fun piece hpiece => ?_
    obtain ⟨pair, -, rfl⟩ := List.mem_map.mp hpiece
    simp [pairText]
  rw [parse, apart, full, List.map_map]
  conv => rhs; rw [← List.map_id pairs]
  exact List.map_congr_left fun pair _ => readPair_pairText pair

/-! ## Texts that are escaped once more -/

/-- The marks of the text stay, and so do the digits of its escapes. -/
structure KeepsMarks (keep : Char → Bool) : Prop where
  marks : ∀ c ∈ ['%', '+', '&', '='], keep c = true
  alphanum : ∀ c, c.isAlphanum = true → keep c = true

/-- What is read of a character as it stands. -/
def charBytes (c : Char) : List UInt8 := String.utf8EncodeChar (plusToSpace c)

theorem plusToSpace_spec {c : Char} (hc : c ≠ '%') (hhex : ¬ Percent.IsHex c) :
    plusToSpace c ≠ '%' ∧ ¬ Percent.IsHex (plusToSpace c) := by
  unfold plusToSpace
  split
  · decide
  · exact ⟨hc, hhex⟩

theorem charBytes_of_mark {c : Char} (h : c = '%' ∨ Percent.IsHex c) : charBytes c = [UInt8.ofNat c.toNat] := by
  have hplus : c ≠ '+' := by
    rintro rfl
    exact absurd h (by decide)
  have hascii : c.toNat < 0x80 := by
    rcases h with rfl | hhex
    · decide
    · exact toNat_lt_of_isAlphanum (Percent.isAlphanum_of_isHex hhex)
  rw [charBytes, plusToSpace_of_ne hplus, Percent.encode_ascii hascii]

theorem writing_charBytes : Percent.Writing charBytes charBytes where
  kept := charBytes_of_mark
  head := by
    intro c hc hhex
    exact Percent.head_char (plusToSpace_spec hc hhex).2
  read := by
    intro c hc hhex
    exact Percent.decode_char (plusToSpace_spec hc hhex).1

section Escaped

variable {keep : Char → Bool} (hkeep : KeepsMarks keep)

include hkeep

theorem encodeChar_of_kept {c : Char} (h : c ∈ ['%', '+', '&', '='] ∨ c.isAlphanum = true) :
    Percent.encodeChar keep c = [c] := by
  have hascii : c.toNat < 0x80 := by
    rcases h with h | h
    · simp only [List.mem_cons, List.not_mem_nil, or_false] at h
      rcases h with rfl | rfl | rfl | rfl
      all_goals decide
    · exact toNat_lt_of_isAlphanum h
  have hkept : keep c = true := by
    rcases h with h | h
    · exact hkeep.marks c h
    · exact hkeep.alphanum c h
  simp [Percent.encodeChar, hascii, hkept]

theorem writing_encodeChar :
    Percent.Writing (fun c => Utf8.encode ((Percent.encodeChar keep c).map plusToSpace)) charBytes where
  kept := by
    intro c h
    have hkept : Percent.encodeChar keep c = [c] := by
      refine encodeChar_of_kept hkeep ?_
      rcases h with rfl | hhex
      · exact Or.inl (by decide)
      · exact Or.inr (Percent.isAlphanum_of_isHex hhex)
    rw [hkept, ← charBytes_of_mark h]
    exact List.append_nil _
  head := by
    intro c hc hhex
    unfold Percent.encodeChar
    split
    · obtain ⟨b, bs, hbytes, hb⟩ := Percent.head_char (plusToSpace_spec hc hhex).2
      exact ⟨b, bs, (List.append_nil _).trans hbytes, hb⟩
    · obtain ⟨b, bs, hbytes⟩ := List.exists_cons_of_ne_nil (String.utf8EncodeChar_ne_nil (c := c))
      rw [map_plusToSpace_escapes, hbytes]
      exact ⟨0x25, _, rfl, rfl⟩
  read := by
    intro c hc hhex rest
    unfold Percent.encodeChar
    split
    · have hbytes : Utf8.encode ([c].map plusToSpace) = charBytes c := List.append_nil _
      rw [hbytes]
      exact Percent.decode_char (plusToSpace_spec hc hhex).1 rest
    · rename_i hescaped
      have hplus : c ≠ '+' := by
        rintro rfl
        exact hescaped (by simp [hkeep.marks '+' (by decide)])
      rw [map_plusToSpace_escapes, Percent.decode_escapes, charBytes, plusToSpace_of_ne hplus]

/-- A name or value is read alike. -/
theorem decode_escaped (cs : List Char) : decode (Percent.encode keep cs) = decode cs := by
  have hescaped : Utf8.encode ((Percent.encode keep cs).map plusToSpace)
      = cs.flatMap fun c => Utf8.encode ((Percent.encodeChar keep c).map plusToSpace) := by
    rw [Percent.encode, List.map_flatMap, Utf8.encode, List.flatMap_assoc]
    rfl
  have hraw : Utf8.encode (cs.map plusToSpace) = cs.flatMap charBytes := by
    rw [Utf8.encode, List.flatMap_map]
    rfl
  show String.ofList (Utf8.decode (Percent.decode (Utf8.encode ((Percent.encode keep cs).map plusToSpace)))) =
    String.ofList (Utf8.decode (Percent.decode (Utf8.encode (cs.map plusToSpace))))
  rw [hescaped, hraw, Percent.decode_writing (writing_encodeChar hkeep) writing_charBytes]

theorem readPair_escaped (piece : List Char) : readPair (Percent.encode keep piece) = readPair piece := by
  have hcut : cut '=' (Percent.encode keep piece)
      = (Percent.encode keep (cut '=' piece).1, (cut '=' piece).2.map (Percent.encode keep)) := by
    refine cut_flatMap (encodeChar_of_kept hkeep (Or.inl (by decide))) ?_ piece
    intro c hc hmem
    rcases Percent.mem_encodeChar hmem with ⟨rfl, -⟩ | h | h
    · exact hc rfl
    · exact absurd h (by decide)
    · exact absurd h (by decide)
  simp only [readPair, hcut, decode_escaped hkeep]
  cases (cut '=' piece).2 with
  | none => rfl
  | some value => simp only [Option.map_some, Option.getD_some, decode_escaped hkeep]

/-- Pairs are read alike. -/
theorem parse_escaped (cs : List Char) : parse (Percent.encode keep cs) = parse cs := by
  have apart : pieces (· == '&') (Percent.encode keep cs) = (pieces (· == '&') cs).map (Percent.encode keep) := by
    refine pieces_flatMap ?_ ?_ cs
    · intro c hc
      rw [beq_iff_eq] at hc
      exact encodeChar_of_kept hkeep (Or.inl (by rw [hc]; decide))
    · intro c hc x hx
      rcases Percent.mem_encodeChar hx with ⟨rfl, -⟩ | rfl | h
      · exact hc
      · rfl
      · exact beq_false_of_ne (ne_of_isAlphanum h (by decide))
  have filled : (fun piece : List Char => !piece.isEmpty) ∘ Percent.encode keep = fun piece => !piece.isEmpty := by
    funext piece
    cases piece with
    | nil => rfl
    | cons c cs =>
      have hne := List.isEmpty_eq_false_iff.mpr (Percent.encode_ne_nil (List.cons_ne_nil c cs) : Percent.encode keep (c :: cs) ≠ [])
      exact congrArg not hne
  have read : readPair ∘ Percent.encode keep = readPair := funext (readPair_escaped hkeep)
  rw [parse, apart, List.filter_map, List.map_map, filled, read, parse]

end Escaped

end Form

end Pagemark
