/-
  Pagemark.Proofs.Pager.Verdict — what every target is answered with.

  Under one seal over page numbers there are seven answers (`Verdict`). The size decides first,
  then the sorting, and only then the page value: it is taken apart at its first dot, and what
  stands there has to be the checksum of the request, the size, the sorting and the token behind
  the dot. Only under the right checksum is that token read as a page number. A page value that
  is not accepted is always an error, never the first page.

  The answers are told from the parameters alone: how a checksum is compared, or in which order
  its form and its value are checked, does not show.

  Proved: `resolve_of_verdict` — a verdict is what is answered, so there is one at most;
  `exists_verdict` — there is one for every target; `resolve_eq_iff_verdict` — together, and
  that an integrity failure is reported exactly for a wrong checksum.
-/

import Pagemark.Pager.Basic
import Pagemark.Proofs.Seal.Checksum
import Pagemark.Proofs.Text.Numeral

namespace Pagemark

open Text

namespace Pager

variable (p : Pager) (lock : Seal.Lock) (t : Target)

/-- The size and the sorting that a target asks for. -/
structure Asks (size : UInt32) (sorting : Sorting) : Prop where
  size : p.readSize (t.first p.names.size) = .ok size
  sorting : Sorting.parse (t.values p.names.sort) = .ok sorting

/-- A page value whose part in front of the first dot, if it has one, is not the checksum that the
request asks for. -/
structure Forged (size : UInt32) (sorting : Sorting) (checksum : List Char) (inner : Option String) : Prop where
  value : t.first p.names.page = some (Seal.sealed checksum inner)
  whole : '.' ∉ checksum
  wrong : checksum ≠ Seal.checksum lock (p.identity t) size sorting inner

/-- What a target is answered with. -/
inductive Verdict : Except PageError Page → Prop
  /-- The size is at fault. -/
  | size {cause : SizeError} : p.readSize (t.first p.names.size) = .error cause →
      Verdict (.error (.size p.names.size cause))
  /-- The size is not, but the sorting is. -/
  | sorting {size : UInt32} {cause : SortError} : p.readSize (t.first p.names.size) = .ok size →
      Sorting.parse (t.values p.names.sort) = .error cause → Verdict (.error (.sorting p.names.sort cause))
  /-- Without a page value, page 0. -/
  | initial {size : UInt32} {sorting : Sorting} : p.Asks t size sorting → t.first p.names.page = none →
      Verdict (.ok ⟨0, size, sorting⟩)
  /-- The right checksum alone: page 0. -/
  | bare {size : UInt32} {sorting : Sorting} : p.Asks t size sorting →
      t.first p.names.page = some (Seal.issued lock (p.identity t) size sorting none) → Verdict (.ok ⟨0, size, sorting⟩)
  /-- The right checksum, and behind it the number of a page. -/
  | numbered {size : UInt32} {sorting : Sorting} {token : String} {index : UInt64} : p.Asks t size sorting →
      t.first p.names.page = some (Seal.issued lock (p.identity t) size sorting (some token)) →
      Spells token.toList index.toNat → Verdict (.ok ⟨index, size, sorting⟩)
  /-- The right checksum, and behind it what numbers no page. -/
  | unnumbered {size : UInt32} {sorting : Sorting} {token : String} {cause : NumeralError} : p.Asks t size sorting →
      t.first p.names.page = some (Seal.issued lock (p.identity t) size sorting (some token)) →
      (∀ index : UInt64, ¬ Spells token.toList index.toNat) → readNat 10 Codec.maxIndex token.toList = .error cause →
      Verdict (.error (.token p.names.page (.pageNumber token cause)))
  /-- Another checksum, or none, whatever stands behind it. -/
  | forged {size : UInt32} {sorting : Sorting} {checksum : List Char} {inner : Option String} : p.Asks t size sorting →
      p.Forged lock t size sorting checksum inner →
      Verdict (.error (.token p.names.page (.integrity (Seal.faultOf checksum))))

/-! ## Numbers of pages -/

theorem readNumber_eq_ok_iff {token : String} {index : UInt64} :
    Codec.readNumber (some token) = .ok index ↔ Spells token.toList index.toNat := by
  have hlimit : index.toNat ≤ Codec.maxIndex := Nat.le_of_lt_succ index.toNat_lt
  rw [← and_iff_left (a := Spells token.toList index.toNat) hlimit, ← readNat_eq_ok_iff]
  unfold Codec.readNumber
  cases hread : readNat 10 Codec.maxIndex token.toList with
  | error cause => simp [hread]
  | ok n =>
    have hn : n ≤ Codec.maxIndex := (readNat_eq_ok_iff.mp hread).2
    have hsmall : n < 2 ^ 64 := Nat.lt_succ_of_le hn
    simp only [hread, Except.ok.injEq]
    constructor
    · rintro rfl
      exact (UInt64.toNat_ofNat_of_lt' hsmall).symm
    · rintro rfl
      exact UInt64.ofNat_toNat

theorem readNumber_error {token : String} {cause : NumeralError}
    (h : readNat 10 Codec.maxIndex token.toList = .error cause) :
    Codec.readNumber (some token) = .error (.pageNumber token cause) := by
  simp [Codec.readNumber, h]

/-! ## One answer at most -/

section Reading

variable {p lock t} {size : UInt32} {sorting : Sorting} (hcodec : p.codec = (Codec.Stack.sealed lock .pageNumber).codec)
  (asks : p.Asks t size sorting)

include asks

/-- Once size and sorting are read, the codec decides. -/
theorem resolve_of_asks : (p.resolve t).value
    = (p.codec.decode ⟨t.first p.names.page, size, sorting⟩ (p.identity t)).value.mapError
        (PageError.token p.names.page) := by
  have read : p.bookmark t = .ok ⟨t.first p.names.page, size, sorting⟩ := by
    simp [bookmark, asks.size, asks.sorting]
  simp only [resolve, read]
  cases (p.codec.decode ⟨t.first p.names.page, size, sorting⟩ (p.identity t)).value with
  | error cause => rfl
  | ok page => rfl

include hcodec

/-- A token that the seal issued is read as the token below. -/
theorem resolve_of_issued {inner : Option String}
    (h : t.first p.names.page = some (Seal.issued lock (p.identity t) size sorting inner)) :
    (p.resolve t).value = ((Codec.readNumber inner).map fun index => Page.mk index size sorting).mapError
      (PageError.token p.names.page) := by
  have below := Codec.underSeal_decode_issued lock .pageNumber
    ⟨some (Seal.issued lock (p.identity t) size sorting inner), size, sorting⟩ (p.identity t) rfl
  rw [resolve_of_asks asks, hcodec, h]
  exact congrArg (fun d : Log.Traced (Except TokenError Page) => d.value.mapError (PageError.token p.names.page)) below

/-- A token with another checksum is refused, whatever the token below. -/
theorem resolve_of_forged {checksum : List Char} {inner : Option String}
    (h : p.Forged lock t size sorting checksum inner) :
    (p.resolve t).value = .error (.token p.names.page (.integrity (Seal.faultOf checksum))) := by
  have refused := Codec.underSeal_decode_of_wrong lock .pageNumber ⟨some (Seal.sealed checksum inner), size, sorting⟩
    (p.identity t) rfl (Seal.parted_sealed h.whole inner) h.wrong
  rw [resolve_of_asks asks, hcodec, h.value]
  exact congrArg (Except.mapError (PageError.token p.names.page)) refused

end Reading

section Verdicts

variable {p lock t} (hcodec : p.codec = (Codec.Stack.sealed lock .pageNumber).codec)

include hcodec

theorem resolve_of_verdict {r : Except PageError Page} (h : p.Verdict lock t r) : (p.resolve t).value = r := by
  cases h with
  | size h => simp [resolve, bookmark, h, Log.Traced.quiet]
  | sorting hsize h => simp [resolve, bookmark, hsize, h, Log.Traced.quiet]
  | initial asks h =>
    rw [resolve_of_asks asks, hcodec, h]
    rfl
  | bare asks h =>
    rw [resolve_of_issued hcodec asks h]
    rfl
  | numbered asks h spells =>
    rw [resolve_of_issued hcodec asks h, readNumber_eq_ok_iff.mpr spells]
    rfl
  | unnumbered asks h _ hread =>
    rw [resolve_of_issued hcodec asks h, readNumber_error hread]
    rfl
  | forged asks h => exact resolve_of_forged hcodec asks h

end Verdicts

/-! ## One answer at least -/

/-- Behind the right checksum stands nothing, the number of a page, or something else. -/
theorem exists_verdict_of_issued {size : UInt32} {sorting : Sorting} (asks : p.Asks t size sorting)
    {inner : Option String} (h : t.first p.names.page = some (Seal.issued lock (p.identity t) size sorting inner)) :
    ∃ r, p.Verdict lock t r := by
  cases inner with
  | none => exact ⟨_, .bare asks h⟩
  | some token =>
    cases hread : readNat 10 Codec.maxIndex token.toList with
    | error cause =>
      refine ⟨_, .unnumbered asks h (fun index spells => ?_) hread⟩
      rw [← readNumber_eq_ok_iff, readNumber_error hread] at spells
      cases spells
    | ok n =>
      have hnumber : Codec.readNumber (some token) = .ok (.ofNat n) := by simp [Codec.readNumber, hread]
      exact ⟨_, .numbered asks h (readNumber_eq_ok_iff.mp hnumber)⟩

/-- Every target has a verdict: each parameter either can be read or is at fault, and a page value
that is not forged is issued. -/
theorem exists_verdict : ∃ r, p.Verdict lock t r := by
  cases hsize : p.readSize (t.first p.names.size) with
  | error cause => exact ⟨_, .size hsize⟩
  | ok size =>
  cases hsorting : Sorting.parse (t.values p.names.sort) with
  | error cause => exact ⟨_, .sorting hsize hsorting⟩
  | ok sorting =>
  have asks : p.Asks t size sorting := ⟨hsize, hsorting⟩
  cases hpage : t.first p.names.page with
  | none => exact ⟨_, .initial asks hpage⟩
  | some token =>
  rw [← Seal.sealed_parted token] at hpage
  by_cases hsum : (Seal.parted token).1 = Seal.checksum lock (p.identity t) size sorting (Seal.parted token).2
  · rw [hsum] at hpage
    exact p.exists_verdict_of_issued lock t asks hpage
  · exact ⟨_, .forged asks ⟨hpage, cut_fst_not_mem '.' _, hsum⟩⟩

/-! ## The answer -/

/-- Every target is answered with its verdict, and with nothing else; and an integrity failure is
reported exactly when size and sorting are read and the checksum is not theirs. -/
theorem resolve_eq_iff_verdict {p : Pager} {lock : Seal.Lock}
    (hcodec : p.codec = (Codec.Stack.sealed lock .pageNumber).codec) (t : Target) :
    (∀ r, (p.resolve t).value = r ↔ p.Verdict lock t r) ∧
      ((∃ e, (p.resolve t).value = .error e ∧ e.isIntegrity = true) ↔
        ∃ size sorting checksum inner, p.Asks t size sorting ∧ p.Forged lock t size sorting checksum inner) := by
  have answered : ∀ r, (p.resolve t).value = r ↔ p.Verdict lock t r := by
    intro r
    constructor
    · rintro rfl
      obtain ⟨r, h⟩ := p.exists_verdict lock t
      rwa [resolve_of_verdict hcodec h]
    · exact resolve_of_verdict hcodec
  refine ⟨answered, ?_, ?_⟩
  · rintro ⟨e, he, hintegrity⟩
    cases (answered _).mp he with
    | size _ => cases hintegrity
    | sorting _ _ => cases hintegrity
    | unnumbered _ _ _ _ => cases hintegrity
    | forged asks h => exact ⟨_, _, _, _, asks, h⟩
  · rintro ⟨size, sorting, checksum, inner, asks, h⟩
    exact ⟨_, resolve_of_forged hcodec asks h, rfl⟩

/-- A number with a plus sign and zeros behind the right checksum, a number that is none behind the
right checksum, and an empty page value. -/
theorem verdicts_of_three_values :
    let identity : Identity := ⟨"/items", Parameters.empty⟩
    let value (page : String) : Target := ⟨"/items", [("size", "+7"), ("page", page)]⟩
    let issued (inner : String) : String := Seal.issued none identity 7 [] (some inner)
    standard.codec = (Codec.Stack.sealed none .pageNumber).codec ∧
      (standard.resolve (value (issued "+003"))).value = .ok ⟨3, 7, []⟩ ∧
      (standard.resolve (value (issued "18446744073709551616"))).value
        = .error (.token "page" (.pageNumber "18446744073709551616" .tooLarge)) ∧
      (standard.resolve (value "")).value = .error (.token "page" (.integrity .malformed)) := by
  intro identity value issued
  have hcodec : standard.codec = (Codec.Stack.sealed none .pageNumber).codec := rfl
  have hidentity (page : String) : standard.identity (value page) = identity := by
    show Identity.mk (Target.normalPath "/items") Parameters.empty = Identity.mk "/items" Parameters.empty
    rw [show Target.normalPath "/items" = "/items" by decide]
  have asks (page : String) : standard.Asks (value page) 7 [] := ⟨rfl, rfl⟩
  have carried (inner : String) : (value (issued inner)).first standard.names.page
      = some (Seal.issued none (standard.identity (value (issued inner))) 7 [] (some inner)) := by
    rw [hidentity]
    rfl
  refine ⟨hcodec, ?_, ?_, ?_⟩
  · refine ((resolve_eq_iff_verdict hcodec _).1 _).mpr (.numbered (asks _) (carried _) ?_)
    exact ⟨['0', '0', '3'], Or.inr rfl, by decide, List.all_eq_true.mp rfl, by decide⟩
  · have toobig : ∀ index : UInt64, ¬ Spells "18446744073709551616".toList index.toNat := by
      intro index spells
      have hread := readNat_eq_ok_iff.mpr ⟨spells, Nat.le_of_lt_succ index.toNat_lt⟩
      cases hread
    exact ((resolve_eq_iff_verdict hcodec _).1 _).mpr (.unnumbered (asks _) (carried _) toobig rfl)
  · have wrong : [] ≠ Seal.checksum none (standard.identity (value "")) 7 [] none := by
      intro h
      have hlength := congrArg List.length h
      rw [Seal.checksum, Seal.length_checksumOf] at hlength
      cases hlength
    have forged : standard.Forged none (value "") 7 [] [] none := ⟨rfl, by decide, wrong⟩
    exact ((resolve_eq_iff_verdict hcodec _).1 _).mpr (.forged (asks _) forged)

end Pager

end Pagemark
