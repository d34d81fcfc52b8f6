/-
  Pagemark.Proofs.Settings.Paging — pagers as settings and builders make them.

  Each builder writes one size in terms of the other, so what a pager ends up with depends on the
  order in which they are used. Whatever the order, the default size stays between one and the
  greatest size: the range that a new default size is brought into is never empty. Settings are
  laid over the standard pager in the one order in which nothing of that pager is left, so that
  they are kept to the letter.

  Proved: `fault?_eq_none_iff` — which settings can be used; `ofSettings_eq_ok_iff` — the pager
  that they make; `sized_and_settings_kept` — every pager that comes about in some way has its
  sizes in range, and settings make a pager exactly when they can be used, and then their own.
-/

import Pagemark.Proofs.Pager.Built
import Pagemark.Settings.Paging

namespace Pagemark

open Text

/-! ## Settings that can be used -/

namespace PagingSettings

/-- The sizes are in order, every name shows, no two names are the same, and a secret is not empty. -/
structure Usable (s : PagingSettings) : Prop where
  pos : 1 ≤ s.defaultSize
  atMost : s.defaultSize ≤ s.maxSize
  shown : ∀ name ∈ s.names.toList, ∃ c ∈ name.toList, isBlank c = false
  distinct : s.names.toList.Nodup
  secret : s.secret ≠ some ""

theorem one_le_iff {size : UInt32} : 1 ≤ size ↔ size ≠ 0 := by
  rw [UInt32.le_iff_toNat_le, ne_eq, ← UInt32.toNat_inj]
  exact Nat.one_le_iff_ne_zero

/-- A check that reports its fault is passed when there is none, and then the next one decides. -/
theorem check_eq_none_iff {c : Prop} [Decidable c] {fault : SettingsFault} {next : Option SettingsFault} :
    (if c then some fault else next) = none ↔ ¬ c ∧ next = none := by
  split
  · rename_i h; simp [h]
  · rename_i h; simp [h]

/-- No check finds a fault exactly when the settings can be used. That the greatest size is not zero
follows from the order of the sizes. -/
theorem fault?_eq_none_iff {s : PagingSettings} : s.fault? = none ↔ s.Usable := by
  have shown : ∀ name : String, ¬ isAllBlank name = true ↔ ∃ c ∈ name.toList, isBlank c = false := by
    simp [isAllBlank]
  have max_ne_zero : s.defaultSize ≠ 0 → s.defaultSize ≤ s.maxSize → s.maxSize ≠ 0 := fun hpos hmax =>
    one_le_iff.mp (UInt32.le_trans (one_le_iff.mpr hpos) hmax)
  simp only [fault?, check_eq_none_iff, shown, UInt32.not_lt]
  constructor
  · rintro ⟨hpos, -, hmax, hpage, hsize, hsort, hsame, hsecret, -⟩
    refine ⟨one_le_iff.mpr hpos, hmax, ?_, ?_, hsecret⟩
    · simpa [ParameterNames.toList] using ⟨hpage, hsize, hsort⟩
    · simpa [ParameterNames.toList, and_assoc] using hsame
  · rintro ⟨hpos, hmax, hshown, hdistinct, hsecret⟩
    simp only [ParameterNames.toList, List.forall_mem_cons] at hshown
    obtain ⟨hpage, hsize, hsort, -⟩ := hshown
    have hpos := one_le_iff.mp hpos
    refine ⟨hpos, max_ne_zero hpos hmax, hmax, hpage, hsize, hsort, ?_, hsecret, trivial⟩
    simpa [ParameterNames.toList, and_assoc] using hdistinct

end PagingSettings

namespace Pager

/-! ## Pagers made of settings -/

/-- In this order a greatest size and a default size replace those there were. -/
theorem withDefaultSize_withMaxSize {defaultSize maxSize : UInt32} (hpos : 1 ≤ defaultSize)
    (hmax : defaultSize ≤ maxSize) (p : Pager) :
    (p.withMaxSize maxSize).withDefaultSize defaultSize = { p with defaultSize, maxSize } := by
  have hpos : 1 ≤ defaultSize.toNat := hpos
  have hmax : defaultSize.toNat ≤ maxSize.toNat := hmax
  have greatest : max 1 maxSize = maxSize := by
    rw [← UInt32.toNat_inj, toNat_max]
    show max 1 maxSize.toNat = _
    omega
  have least : max 1 (min defaultSize maxSize) = defaultSize := by
    rw [← UInt32.toNat_inj, toNat_max, toNat_min]
    show max 1 (min defaultSize.toNat maxSize.toNat) = _
    omega
  simp only [withDefaultSize, withMaxSize, greatest, least]

/-- Settings that can be used make the pager with their sizes and names; others make none. -/
theorem ofSettings_eq_ok_iff {s : PagingSettings} {p : Pager} :
    (ofSettings s).value = .ok p ↔
      s.Usable ∧ p = ⟨(Codec.Stack.standard s.secret).codec, s.defaultSize, s.maxSize, s.names⟩ := by
  rw [← PagingSettings.fault?_eq_none_iff]
  unfold ofSettings
  cases hfault : s.fault? with
  | some fault => simp [Log.Traced.quiet]
  | none =>
    have usable := PagingSettings.fault?_eq_none_iff.mp hfault
    simp only [withDefaultSize_withMaxSize usable.pos usable.atMost, Except.ok.injEq, true_and]
    exact eq_comm

/-! ## Pagers as they come about -/

/-- The standard pager, one over a codec of any kind, one that settings make, and what the builders
make of them. -/
inductive Made : Pager → Prop
  | standard : Made standard
  | ofCodec (codec : Codec) : Made (.ofCodec codec)
  | ofSettings {s : PagingSettings} {p : Pager} (h : (ofSettings s).value = .ok p) : Made p
  | withDefaultSize {p : Pager} (size : UInt32) : Made p → Made (p.withDefaultSize size)
  | withMaxSize {p : Pager} (size : UInt32) : Made p → Made (p.withMaxSize size)
  | withNames {p : Pager} (names : ParameterNames) : Made p → Made (p.withNames names)

theorem sized_ofSettings {s : PagingSettings} {p : Pager} (h : (ofSettings s).value = .ok p) : p.Sized := by
  obtain ⟨usable, rfl⟩ := ofSettings_eq_ok_iff.mp h
  exact ⟨usable.pos, usable.atMost⟩

theorem sized_of_made {p : Pager} (h : Made p) : p.Sized := by
  induction h with
  | standard => exact sized_ofCodec _
  | ofCodec codec => exact sized_ofCodec codec
  | ofSettings h => exact sized_ofSettings h
  | withDefaultSize size _ ih => exact sized_withDefaultSize ih size
  | withMaxSize size _ ih => exact sized_withMaxSize ih size
  | withNames names _ ih => exact sized_withNames ih names

/-- Brings a size into a range. There is no answer for a range that ends before it begins. -/
def clamp? (low high size : UInt32) : Option UInt32 :=
  if high < low then none
  else some (if size < low then low else if high < size then high else size)

/-- The range that a new default size is brought into is not empty. -/
theorem clamp?_defaultSize {p : Pager} (h : p.Sized) (size : UInt32) :
    clamp? 1 p.maxSize size = some (p.withDefaultSize size).defaultSize := by
  obtain ⟨hpos, hmax⟩ := sized_iff.mp h
  have one : (1 : UInt32).toNat = 1 := rfl
  have range : ¬ p.maxSize < 1 := by
    rw [UInt32.lt_iff_toNat_lt, one]
    omega
  show clamp? 1 p.maxSize size = some (max 1 (min size p.maxSize))
  rw [clamp?, if_neg range, Option.some_inj, ← UInt32.toNat_inj, toNat_max, toNat_min, one]
  simp only [UInt32.lt_iff_toNat_lt, one]
  split
  · omega
  split
  · omega
  · omega

/-- However a pager comes about, its sizes are in order, so that a default size can always be brought
into its range, and every size that it reads is one that it allows. Settings make a pager exactly
when they can be used; it has their sizes and names, none of them changed by those of the standard
pager, and a key exactly when they have a secret. -/
theorem sized_and_settings_kept :
    (∀ p, Made p → (1 ≤ p.defaultSize ∧ p.defaultSize ≤ p.maxSize) ∧
      (∀ size, clamp? 1 p.maxSize size = some (p.withDefaultSize size).defaultSize) ∧
      ∀ t b, p.bookmark t = .ok b → 1 ≤ b.size ∧ b.size ≤ p.maxSize) ∧
    ∀ s : PagingSettings, ((∃ p, (ofSettings s).value = .ok p) ↔ s.Usable) ∧
      ∀ p, (ofSettings s).value = .ok p → p.defaultSize = s.defaultSize ∧ p.maxSize = s.maxSize ∧ p.names = s.names ∧
        ∃ lock : Seal.Lock, p.codec = (Codec.Stack.sealed lock .pageNumber).codec ∧
          (lock.isSome = true ↔ s.secret.isSome = true) := by
  refine ⟨fun p made => ?_, fun s => ⟨⟨?_, fun usable => ?_⟩, fun p h => ?_⟩⟩
  · have sized := sized_of_made made
    refine ⟨⟨sized.pos, sized.atMost⟩, clamp?_defaultSize sized, fun t b h => ?_⟩
    exact readSize_range sized (p.bookmark_ok t h).2.1
  · rintro ⟨p, h⟩
    exact (ofSettings_eq_ok_iff.mp h).1
  · exact ⟨_, ofSettings_eq_ok_iff.mpr ⟨usable, rfl⟩⟩
  · obtain ⟨-, rfl⟩ := ofSettings_eq_ok_iff.mp h
    refine ⟨rfl, rfl, rfl, s.secret.bind Seal.lockOf, rfl, ?_⟩
    cases s.secret with
    | none => exact Iff.rfl
    | some secret => exact iff_of_true rfl rfl

/-- A greatest size of zero and default sizes out of range, in turn; and settings whose sizes are
above and below those of the standard pager. -/
theorem sizes_of_extreme_builders :
    let p := (((standard.withMaxSize 0).withDefaultSize 4294967295).withMaxSize 4294967295).withDefaultSize 0
    let s : PagingSettings := { defaultSize := 150, maxSize := 200, secret := some "s" }
    let t : Target := ⟨"/", [("size", "99999999999999999999")]⟩
    Made p ∧ p.bookmark t = .ok ⟨none, 4294967295, []⟩ ∧ 1 ≤ (4294967295 : UInt32) ∧ s.Usable ∧
      ∃ made, (ofSettings s).value = .ok made ∧ made.defaultSize = 150 ∧ made.maxSize = 200 := by
  intro p s t
  have made : Made p := .withDefaultSize _ (.withMaxSize _ (.withDefaultSize _ (.withMaxSize _ .standard)))
  have read : p.bookmark t = .ok ⟨none, 4294967295, []⟩ := rfl
  have usable : s.Usable := PagingSettings.fault?_eq_none_iff.mp (by decide)
  obtain ⟨sizes, settings⟩ := sized_and_settings_kept
  obtain ⟨pager, hpager⟩ := (settings s).1.mpr usable
  obtain ⟨hdefault, hmax, -⟩ := (settings s).2 pager hpager
  exact ⟨made, read, ((sizes p made).2.2 t _ read).1, usable, pager, hpager, hdefault, hmax⟩

end Pager

end Pagemark
