/-
  Pagemark.Proofs.Pager.Carried — the pages that a link carries.

  A link writes the size in digits, one value per key, and a token, and reading takes each of
  them apart again by rules of its own: sizes are lowered to the greatest one, properties are
  cut at commas and trimmed, and the last segment may be taken for a direction. So a page that
  was read has passed through these rules, and the link gives back just the pages on which they
  change nothing (`Carries`), whatever stood in the paging parameters of the target before.

  Proved: `carries_of_resolve_link` — a link that reads back carries its page;
  `resolve_link_of_carries` — a link that carries its page reads back;
  `resolve_link_eq_ok_iff` — both, for all pages and targets.
-/

import Pagemark.Proofs.Pager.Link

namespace Pagemark.Pager

variable {p : Pager} {stack : Codec.Stack} {page : Page} {t : Target}

section Stack

variable (hcodec : p.codec = stack.codec) (distinct : p.names.toList.Nodup)

include hcodec distinct

/-- What is read from the size parameter of a link is read from the digits of the size. -/
theorem first_size_link : (p.link page t).first p.names.size = some (Text.decimal page.size.toNat) := by
  obtain ⟨token, hencode⟩ := Codec.stack_encode page (p.identity t) stack
  rw [← hcodec] at hencode
  rw [Target.first, values_link p page t (List.mem_cons_of_mem _ List.mem_cons_self),
    valuesIn_pairs_size p distinct, hencode]
  rfl

/-- A page that comes back out of its link has a size that the pager allows, for it was read from the
digits of that size, and named keys, for nothing else comes out of sort values. -/
theorem carries_of_resolve_link (h : (p.resolve (p.link page t)).value = .ok page) : p.Carries page := by
  obtain ⟨b, hb, hdecode⟩ := p.resolve_ok _ h
  obtain ⟨-, hread, hparse⟩ := p.bookmark_ok _ hb
  rw [hcodec] at hdecode
  obtain ⟨hsize, hsorting⟩ := Codec.stack_decode _ stack hdecode
  rw [first_size_link hcodec distinct, ← hsize] at hread
  rw [← hsorting] at hparse
  obtain ⟨hpos, hmax⟩ := p.readSize_decimal_iff.mp hread
  exact ⟨hpos, hmax, Sorting.named_of_parse hparse⟩

/-- The converse: what the link writes is what is read, and a stack reads back what it writes. -/
theorem resolve_link_of_carries (h : p.Carries page) : (p.resolve (p.link page t)).value = .ok page := by
  obtain ⟨token, hencode⟩ := Codec.stack_encode page (p.identity t) stack
  rw [← hcodec] at hencode
  have hreads : p.codec.ReadsBack page (p.identity t) := by
    rw [hcodec]
    exact Codec.stack_readsBack page _ stack
  exact resolve_link distinct h (by rw [hencode]) (by rw [hencode]) hreads

end Stack

/-- A link gives its page back exactly when the size is one that the pager allows and every property
can be told from the commas and blanks around it. Neither the target nor the index matters. -/
theorem resolve_link_eq_ok_iff (hcodec : p.codec = stack.codec) (distinct : p.names.toList.Nodup) (page : Page)
    (t : Target) : (p.resolve (p.link page t)).value = .ok page ↔ p.Carries page := by
  constructor
  · intro h
    exact carries_of_resolve_link hcodec distinct h
  · intro h
    exact resolve_link_of_carries hcodec distinct h

/-- Under two seals, with odd names and stale paging parameters: a property called `desc` comes back,
one with a no-break space at its end does not. -/
theorem desc_is_carried_and_padded_is_not :
    let stack : Codec.Stack := .sealed (Seal.lockOf "secret") (.sealed Seal.unlocked .pageNumber)
    let p := ((ofCodec stack.codec).withMaxSize 5).withNames ⟨"", "n&=", "by"⟩
    let t : Target := ⟨"/a", [("", "x.y"), ("n&=", "-1"), ("q", "1"), ("by", "desc"), ("", "0")]⟩
    let kept : Page := ⟨18446744073709551615, 5, [⟨"desc", .ascending⟩, ⟨"unit price", .descending⟩]⟩
    let lost : Page := ⟨0, 5, [⟨"name\u00a0", .ascending⟩]⟩
    p.codec = stack.codec ∧ p.names.toList.Nodup ∧ (p.resolve (p.link kept t)).value = .ok kept ∧
      (p.resolve (p.link lost t)).value ≠ .ok lost := by
  intro stack p t kept lost
  have hcodec : p.codec = stack.codec := rfl
  have distinct : p.names.toList.Nodup := by decide
  have hkept : p.Carries kept := ⟨by decide, by decide, by decide⟩
  refine ⟨hcodec, distinct, (resolve_link_eq_ok_iff hcodec distinct kept t).mpr hkept, fun h => ?_⟩
  have hlost := (resolve_link_eq_ok_iff hcodec distinct lost t).mp h
  exact absurd (hlost.named _ List.mem_cons_self) (by decide)

end Pagemark.Pager
