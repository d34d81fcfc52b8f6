/-
  Pagemark.Proofs.Seal.Message — the hashed bytes tell everything that a token is bound to.

  A way of writing values is `SelfDelimiting` when the end of a value can be told from its
  bytes: two written values with anything behind them are equal only if the values are, and
  then so is what stands behind them. Lengths in front make texts and lists so, and one
  self-delimiting part after another makes a self-delimiting whole. No byte of a text is
  special, so a text may spell lengths and marks as it likes.

  Lengths are eight bytes wide, so what is written has to fit them (`Fits`).

  Proved: `message_injective` — of all that fits, the bytes are the same exactly when identity,
  size, sorting and token are, and no bytes begin with others.
-/

import Mathlib.Algebra.Group.Nat.Defs
import Pagemark.Codec.Seal
import Pagemark.Proofs.Text.Utf8

namespace Pagemark.Seal

open Digest Text

/-! ## Self-delimiting bytes -/

/-- The end of a written value can be told from its bytes, among the values that fit. -/
def SelfDelimiting {α : Type} (fits : α → Prop) (write : α → List UInt8) : Prop :=
  ∀ ⦃a b : α⦄ ⦃x y : List UInt8⦄, fits a → fits b → write a ++ x = write b ++ y → a = b ∧ x = y

/-- Below `256 ^ n`, the lowest `n` bytes determine the number. -/
theorem littleEndian_inj {n a b : Nat} (ha : a < 256 ^ n) (hb : b < 256 ^ n)
    (h : littleEndian n a = littleEndian n b) : a = b := by
  induction n generalizing a b with
  | zero => simp at ha hb; omega
  | succ n ih =>
    simp only [littleEndian, List.cons.injEq] at h
    have low : a % 256 = b % 256 := by
      have := congrArg UInt8.toNat h.1
      simpa using this
    have high : a / 256 = b / 256 :=
      ih (by rw [Nat.pow_succ] at ha; omega) (by rw [Nat.pow_succ] at hb; omega) h.2
    omega

theorem littleEndian_delimiting (n : Nat) : SelfDelimiting (· < 256 ^ n) (littleEndian n) := by
  intro a b x y ha hb h
  obtain ⟨hab, hxy⟩ := List.append_inj h (by simp)
  exact ⟨littleEndian_inj ha hb hab, hxy⟩

theorem lengthBytes_delimiting : SelfDelimiting (· < 2 ^ 64) lengthBytes := littleEndian_delimiting 8

/-- One part after another. -/
theorem SelfDelimiting.pair {α β : Type} {fitsA : α → Prop} {fitsB : β → Prop} {writeA : α → List UInt8}
    {writeB : β → List UInt8} (hA : SelfDelimiting fitsA writeA) (hB : SelfDelimiting fitsB writeB) :
    SelfDelimiting (fun v : α × β => fitsA v.1 ∧ fitsB v.2) (fun v => writeA v.1 ++ writeB v.2) := by
  intro a b x y ha hb h
  rw [List.append_assoc, List.append_assoc] at h
  obtain ⟨h1, h⟩ := hA ha.1 hb.1 h
  obtain ⟨h2, h⟩ := hB ha.2 hb.2 h
  exact ⟨Prod.ext h1 h2, h⟩

/-! ## Texts and lists -/

/-- The length of a text in bytes has eight bytes. -/
def TextFits (s : String) : Prop := s.utf8ByteSize < 2 ^ 64

instance : DecidablePred TextFits := fun s => inferInstanceAs (Decidable (s.utf8ByteSize < 2 ^ 64))

theorem length_textBytes (s : String) : (textBytes s).length = s.utf8ByteSize := Utf8.length_encode s

theorem textBytes_injective {a b : String} (h : textBytes a = textBytes b) : a = b :=
  String.toList_injective (Utf8.encode_injective h)

theorem sizedText_delimiting : SelfDelimiting TextFits sizedText := by
  intro a b x y ha hb h
  simp only [sizedText, List.append_assoc, length_textBytes] at h
  obtain ⟨hlen, h⟩ := lengthBytes_delimiting ha hb h
  obtain ⟨hab, hxy⟩ := List.append_inj h (by rw [length_textBytes, length_textBytes, hlen])
  exact ⟨textBytes_injective hab, hxy⟩

section Lists

variable {α : Type} {fits : α → Prop} {item : α → List UInt8}

/-- As many items as the other list, each of them self-delimiting. -/
theorem flatMap_delimiting (hi : SelfDelimiting fits item) :
    ∀ {as bs : List α} {x y : List UInt8}, as.length = bs.length → (∀ a ∈ as, fits a) → (∀ b ∈ bs, fits b) →
      as.flatMap item ++ x = bs.flatMap item ++ y → as = bs ∧ x = y
  | [], [], _, _, _, _, _, h => ⟨rfl, h⟩
  | [], _ :: _, _, _, hl, _, _, _ => by simp at hl
  | _ :: _, [], _, _, hl, _, _, _ => by simp at hl
  | a :: as, b :: bs, x, y, hl, ha, hb, h => by
    simp only [List.flatMap_cons, List.append_assoc] at h
    obtain ⟨hab, h⟩ := hi (ha a List.mem_cons_self) (hb b List.mem_cons_self) h
    obtain ⟨hs, hxy⟩ := flatMap_delimiting hi (by simpa using hl) (fun c hc => ha c (List.mem_cons_of_mem _ hc))
      (fun c hc => hb c (List.mem_cons_of_mem _ hc)) h
    exact ⟨by rw [hab, hs], hxy⟩

/-- The length of a list has eight bytes, and its items fit. -/
def ListFits (fits : α → Prop) (items : List α) : Prop := items.length < 2 ^ 64 ∧ ∀ a ∈ items, fits a

instance [DecidablePred fits] : DecidablePred (ListFits fits) := fun items =>
  inferInstanceAs (Decidable (items.length < 2 ^ 64 ∧ ∀ a ∈ items, fits a))

theorem sizedList_delimiting (hi : SelfDelimiting fits item) : SelfDelimiting (ListFits fits) (sizedList item) := by
  intro as bs x y ha hb h
  simp only [sizedList, List.append_assoc] at h
  obtain ⟨hlen, h⟩ := lengthBytes_delimiting ha.1 hb.1 h
  exact flatMap_delimiting hi hlen ha.2 hb.2 h

end Lists

/-! ## The parts of a message -/

/-- A name and its values fit. -/
def ParameterFits (entry : String × List String) : Prop := TextFits entry.1 ∧ ListFits TextFits entry.2

instance : DecidablePred ParameterFits := fun entry =>
  inferInstanceAs (Decidable (TextFits entry.1 ∧ ListFits TextFits entry.2))

theorem parameterBytes_delimiting : SelfDelimiting ParameterFits parameterBytes :=
  sizedText_delimiting.pair (sizedList_delimiting sizedText_delimiting)

theorem directionByte_injective {a b : Direction} (h : directionByte a = directionByte b) : a = b := by
  cases a with
  | ascending =>
    cases b with
    | ascending => rfl
    | descending => exact absurd h (by decide)
  | descending =>
    cases b with
    | ascending => exact absurd h (by decide)
    | descending => rfl

def KeyFits (key : SortKey) : Prop := TextFits key.property

instance : DecidablePred KeyFits := fun key => inferInstanceAs (Decidable (TextFits key.property))

theorem keyBytes_delimiting : SelfDelimiting KeyFits keyBytes := by
  intro a b x y ha hb h
  simp only [keyBytes, List.append_assoc, List.singleton_append] at h
  obtain ⟨hp, h⟩ := sizedText_delimiting ha hb h
  obtain ⟨hd, hxy⟩ := List.cons.inj h
  have hd := directionByte_injective hd
  cases a; cases b
  exact ⟨by rw [SortKey.mk.injEq]; exact ⟨hp, hd⟩, hxy⟩

def TokenFits (token : Option String) : Prop := ∀ t ∈ token, TextFits t

instance : DecidablePred TokenFits := fun token => inferInstanceAs (Decidable (∀ t ∈ token, TextFits t))

theorem tokenBytes_delimiting : SelfDelimiting TokenFits tokenBytes := by
  intro a b x y ha hb h
  cases a with
  | none =>
    cases b with
    | none => exact ⟨rfl, (List.cons.inj h).2⟩
    | some t => exact absurd (List.cons.inj h).1 (by decide)
  | some s =>
    cases b with
    | none => exact absurd (List.cons.inj h).1 (by decide)
    | some t =>
      obtain ⟨hst, hxy⟩ := sizedText_delimiting (ha s rfl) (hb t rfl) (List.cons.inj h).2
      exact ⟨by rw [hst], hxy⟩

theorem size_lt (size : UInt32) : size.toNat < 256 ^ 8 := Nat.lt_trans size.toNat_lt (by decide)

/-! ## The whole message -/

/-- Every text has fewer than `2 ^ 64` bytes, and every list fewer than `2 ^ 64` items. -/
structure Fits (identity : Identity) (sorting : Sorting) (token : Option String) : Prop where
  path : TextFits identity.path
  parameters : ListFits ParameterFits identity.parameters.entries
  keys : ListFits KeyFits sorting
  token : TokenFits token

theorem fits_iff (i : Identity) (s : Sorting) (k : Option String) :
    Fits i s k ↔ TextFits i.path ∧ ListFits ParameterFits i.parameters.entries ∧ ListFits KeyFits s ∧ TokenFits k :=
  ⟨fun h => ⟨h.path, h.parameters, h.keys, h.token⟩, fun h => ⟨h.1, h.2.1, h.2.2.1, h.2.2.2⟩⟩

instance (i : Identity) (s : Sorting) (k : Option String) : Decidable (Fits i s k) :=
  decidable_of_iff _ (fits_iff i s k).symm

section Message

variable {i i' : Identity} {p p' : UInt32} {s s' : Sorting} {k k' : Option String}

/-- The parts are peeled off one by one, each telling where it ends. -/
theorem message_delimiting (h : Fits i s k) (h' : Fits i' s' k') {x y : List UInt8}
    (heq : message i p s k ++ x = message i' p' s' k' ++ y) : (i = i' ∧ p = p' ∧ s = s' ∧ k = k') ∧ x = y := by
  simp only [message, List.append_assoc] at heq
  have heq := List.append_cancel_left heq
  obtain ⟨hpath, heq⟩ := sizedText_delimiting h.path h'.path heq
  obtain ⟨hparams, heq⟩ := sizedList_delimiting parameterBytes_delimiting h.parameters h'.parameters heq
  obtain ⟨hsize, heq⟩ := littleEndian_delimiting 8 (size_lt p) (size_lt p') heq
  obtain ⟨hkeys, heq⟩ := sizedList_delimiting keyBytes_delimiting h.keys h'.keys heq
  obtain ⟨htoken, heq⟩ := tokenBytes_delimiting h.token h'.token heq
  have hidentity : i = i' := by
    cases i; cases i'
    rw [Identity.mk.injEq]
    exact ⟨hpath, Parameters.ext hparams⟩
  exact ⟨⟨hidentity, UInt32.toNat_inj.mp hsize, hkeys, htoken⟩, heq⟩

/-- The hashed bytes are the same exactly when all that the token is bound to is the same, and the
bytes of one request never begin with those of another. -/
theorem message_injective (h : Fits i s k) (h' : Fits i' s' k') :
    (message i p s k = message i' p' s' k' ↔ i = i' ∧ p = p' ∧ s = s' ∧ k = k') ∧
      (message i p s k <+: message i' p' s' k' → message i p s k = message i' p' s' k') := by
  refine ⟨⟨fun heq => ?_, ?_⟩, ?_⟩
  · have heq : message i p s k ++ [] = message i' p' s' k' ++ [] := by rw [heq]
    exact (message_delimiting h h' heq).1
  · rintro ⟨rfl, rfl, rfl, rfl⟩
    rfl
  · rintro ⟨rest, hrest⟩
    have heq : message i p s k ++ rest = message i' p' s' k' ++ [] := by rw [hrest, List.append_nil]
    obtain ⟨-, hnil⟩ := message_delimiting h h' heq
    rw [← hrest, hnil, List.append_nil]

/-- One value that spells the length and the bytes of a second one, beside two values. -/
theorem message_injective_imitated :
    let one : Identity := ⟨"/x", Parameters.empty.add "a" "b\x01\x00\x00\x00\x00\x00\x00\x00c"⟩
    let two : Identity := ⟨"/x", (Parameters.empty.add "a" "b").add "a" "c"⟩
    let keys : Sorting := [⟨"id", .descending⟩]
    Fits one keys (some "") ∧ Fits two keys (some "") ∧
      message one 20 keys (some "") ≠ message two 20 keys (some "") := by
  intro one two keys
  have hone : Fits one keys (some "") := by decide
  have htwo : Fits two keys (some "") := by decide
  refine ⟨hone, htwo, fun h => ?_⟩
  have heq : one = two := ((message_injective hone htwo).1.mp h).1
  exact absurd heq (by decide)

end Message

end Pagemark.Seal
