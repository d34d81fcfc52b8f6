/-
  Pagemark.Proofs.Pager.Built — the sizes of a pager that is built.

  The builders keep the default size between one and the greatest size, in whatever order they
  are used. So every size that such a pager reads is in that range, and the pages that it reads
  are pages that its links can carry.

  Proved: `sized_withDefaultSize`, `sized_withMaxSize` — one builder keeps the range; `sized_of_built` —
  so do many; `readSize_range` — a size that is read is allowed; `carries_of_resolve` — a page that is
  read can be linked to.
-/

import Pagemark.Proofs.Pager.Link

namespace Pagemark.Pager

/-- A pager over the codec, made by any sequence of builders. -/
inductive Built (codec : Codec) : Pager → Prop
  | ofCodec : Built codec (.ofCodec codec)
  | withDefaultSize {p : Pager} (size : UInt32) : Built codec p → Built codec (p.withDefaultSize size)
  | withMaxSize {p : Pager} (size : UInt32) : Built codec p → Built codec (p.withMaxSize size)
  | withNames {p : Pager} (names : ParameterNames) : Built codec p → Built codec (p.withNames names)

/-- The default size is at least one and at most the greatest size. -/
structure Sized (p : Pager) : Prop where
  pos : 0 < p.defaultSize
  atMost : p.defaultSize ≤ p.maxSize

theorem codec_of_built {codec : Codec} {p : Pager} (h : Built codec p) : p.codec = codec := by
  induction h with
  | ofCodec => rfl
  | withDefaultSize _ _ ih => exact ih
  | withMaxSize _ _ ih => exact ih
  | withNames _ _ ih => exact ih

theorem toNat_max (a b : UInt32) : (max a b).toNat = max a.toNat b.toNat := by
  show (if a ≤ b then b else a).toNat = _
  split
  · rename_i h
    have h : a.toNat ≤ b.toNat := h
    omega
  · rename_i h
    have h : ¬ a.toNat ≤ b.toNat := h
    omega

theorem toNat_min (a b : UInt32) : (min a b).toNat = min a.toNat b.toNat := by
  show (if a ≤ b then a else b).toNat = _
  split
  · rename_i h
    have h : a.toNat ≤ b.toNat := h
    omega
  · rename_i h
    have h : ¬ a.toNat ≤ b.toNat := h
    omega

theorem sized_iff {p : Pager} : p.Sized ↔ 1 ≤ p.defaultSize.toNat ∧ p.defaultSize.toNat ≤ p.maxSize.toNat :=
  ⟨fun h => ⟨h.pos, h.atMost⟩, fun h => ⟨h.1, h.2⟩⟩

theorem sized_ofCodec (codec : Codec) : (ofCodec codec).Sized :=
  ⟨(by decide : 0 < standardSize), (by decide : standardSize ≤ standardMaxSize)⟩

/-- A new default size is brought into the range. -/
theorem sized_withDefaultSize {p : Pager} (h : p.Sized) (size : UInt32) : (p.withDefaultSize size).Sized := by
  obtain ⟨hpos, hmax⟩ := sized_iff.mp h
  have hsize : (p.withDefaultSize size).defaultSize.toNat = max 1 (min size.toNat p.maxSize.toNat) := by
    show (max 1 (min size p.maxSize)).toNat = _
    rw [toNat_max, toNat_min]
    rfl
  have hsame : (p.withDefaultSize size).maxSize = p.maxSize := rfl
  rw [sized_iff, hsize, hsame]
  omega

/-- A new greatest size takes the default size down with it. -/
theorem sized_withMaxSize {p : Pager} (h : p.Sized) (size : UInt32) : (p.withMaxSize size).Sized := by
  obtain ⟨hpos, hmax⟩ := sized_iff.mp h
  have hgreatest : (p.withMaxSize size).maxSize.toNat = max 1 size.toNat := toNat_max 1 size
  have hsize : (p.withMaxSize size).defaultSize.toNat = min p.defaultSize.toNat (max 1 size.toNat) := by
    show (min p.defaultSize (max 1 size)).toNat = _
    rw [toNat_min, toNat_max]
    rfl
  rw [sized_iff, hsize, hgreatest]
  omega

theorem sized_withNames {p : Pager} (h : p.Sized) (names : ParameterNames) : (p.withNames names).Sized :=
  ⟨h.pos, h.atMost⟩

theorem sized_of_built {codec : Codec} {p : Pager} (h : Built codec p) : p.Sized := by
  induction h with
  | ofCodec => exact sized_ofCodec codec
  | withDefaultSize size _ ih => exact sized_withDefaultSize ih size
  | withMaxSize size _ ih => exact sized_withMaxSize ih size
  | withNames names _ ih => exact sized_withNames ih names

section Sized

variable {p : Pager} (hp : p.Sized)

include hp

/-- A size that is read is at least one and at most the greatest size. -/
theorem readSize_range {raw : Option String} {size : UInt32} (h : p.readSize raw = .ok size) :
    0 < size ∧ size ≤ p.maxSize := by
  obtain ⟨hpos, hmax⟩ := sized_iff.mp hp
  have greatest : 0 < p.maxSize ∧ p.maxSize ≤ p.maxSize := by
    refine ⟨?_, Nat.le_refl _⟩
    show 0 < p.maxSize.toNat
    omega
  unfold readSize at h
  split at h
  · cases h; exact ⟨hp.pos, hp.atMost⟩
  split at h
  · rename_i value _
    split at h
    · cases h
    cases h
    have hsize := p.toNat_leastSize value.toNat
    refine ⟨?_, ?_⟩
    · show 0 < (UInt32.ofNat (min value.toNat p.maxSize.toNat)).toNat
      omega
    · show (UInt32.ofNat (min value.toNat p.maxSize.toNat)).toNat ≤ p.maxSize.toNat
      omega
  · cases h; exact greatest
  · cases h
  · cases h

/-- A page that is read by way of a stack can be linked to. -/
theorem carries_of_resolve {stack : Codec.Stack} (hcodec : p.codec = stack.codec) {t : Target} {page : Page}
    (h : (p.resolve t).value = .ok page) : p.Carries page := by
  obtain ⟨b, hb, hdecode⟩ := p.resolve_ok t h
  obtain ⟨-, hsize, hsorting⟩ := p.bookmark_ok t hb
  rw [hcodec] at hdecode
  obtain ⟨hpage, hkeys⟩ := Codec.stack_decode _ stack hdecode
  obtain ⟨hpos, hmax⟩ := readSize_range hp hsize
  refine ⟨?_, ?_, ?_⟩
  · rw [hpage]; exact hpos
  · rw [hpage]; exact hmax
  · rw [hkeys]; exact Sorting.named_of_parse hsorting

end Sized

end Pagemark.Pager
