/-
  Pagemark.Proofs.Pager.Link — a link carries its page and nothing else of its own.

  Writing a page replaces the paging parameters of a target and no others, so what a token is
  bound to is the same for a target and for every link made of it, and a link of a link is a
  link of the target. When the three names differ, each paging parameter of a link is what was
  written under its own name, and reading the link gives the bookmark back.

  Proved: `identity_link`, `link_link` — links stay with their target; `bookmark_link` — the
  bookmark of a link is the one written; `resolve_link` — and its page is the one linked to.
-/

import Pagemark.Pager.Basic
import Pagemark.Proofs.Codec.RoundTrip
import Pagemark.Proofs.Identity
import Pagemark.Proofs.Sorting
import Pagemark.Proofs.Text.Integer

namespace Pagemark

open Text

/-! ## Reading -/

namespace Pager

variable (p : Pager) (page : Page) (t : Target)

/-- The parts of a bookmark are read each from its own parameter. -/
theorem bookmark_ok {b : Bookmark} (h : p.bookmark t = .ok b) :
    b.token = t.first p.names.page ∧ p.readSize (t.first p.names.size) = .ok b.size ∧
      Sorting.parse (t.values p.names.sort) = .ok b.sorting := by
  unfold bookmark at h
  split at h
  · cases h
  rename_i size hsize
  split at h
  · cases h
  rename_i sorting hsorting
  cases h
  exact ⟨rfl, hsize, hsorting⟩

theorem resolve_ok {page : Page} (h : (p.resolve t).value = .ok page) :
    ∃ b, p.bookmark t = .ok b ∧ (p.codec.decode b (p.identity t)).value = .ok page := by
  unfold resolve at h
  split at h
  · cases h
  rename_i b hb
  refine ⟨b, hb, ?_⟩
  simp only at h
  split at h
  · cases h
  rename_i page' hpage
  cases h
  exact hpage

/-! ## Links -/

theorem path_link : (p.link page t).path = t.path := rfl

/-- The token of a link is bound to what its target is bound to. -/
theorem link_eq :
    p.link page t = { t.without p.names.toList with
      query := (t.without p.names.toList).query ++ p.pairs (p.codec.encode page (p.identity t)) } := by
  have same : p.identity (t.without p.names.toList) = p.identity t := Target.identity_without t _
  rw [link, same]

theorem mem_pairs {b : Bookmark} {pair : String × String} (h : pair ∈ p.pairs b) : pair.1 ∈ p.names.toList := by
  rcases List.mem_append.mp h with h | h
  · cases ht : b.token with
    | none => rw [ht] at h; cases h
    | some token =>
      rw [ht] at h
      rw [List.mem_singleton.mp h]
      exact List.mem_cons_self
  rcases List.mem_cons.mp h with h | h
  · rw [h]
    exact List.mem_cons_of_mem _ List.mem_cons_self
  · obtain ⟨value, -, rfl⟩ := List.mem_map.mp h
    exact List.mem_cons_of_mem _ (List.mem_cons_of_mem _ List.mem_cons_self)

/-- The parameters other than the paging ones stay as they are. -/
theorem without_link : (p.link page t).without p.names.toList = t.without p.names.toList := by
  have gone : (p.pairs (p.codec.encode page (p.identity t))).filter
      (fun pair => !p.names.toList.contains pair.1) = [] := by
    refine List.filter_eq_nil_iff.mpr fun pair hp => ?_
    simp [p.mem_pairs hp]
  have kept : ((t.without p.names.toList).query).filter (fun pair => !p.names.toList.contains pair.1)
      = (t.without p.names.toList).query := congrArg Target.query (t.without_without p.names.toList)
  rw [link_eq]
  show Target.mk _ (List.filter _ (_ ++ _)) = _
  rw [List.filter_append, gone, kept, List.append_nil]

theorem identity_link : p.identity (p.link page t) = p.identity t := by
  show (p.link page t).identity _ = t.identity _
  rw [← Target.identity_without (p.link page t), without_link, Target.identity_without]

/-- Links depend on the target only by what is no paging parameter. -/
theorem link_congr {p : Pager} {t t' : Target} (h : t.without p.names.toList = t'.without p.names.toList)
    (page : Page) : p.link page t = p.link page t' := by
  unfold link
  rw [h]

/-- A link of a link is a link of the target. -/
theorem link_link (page' : Page) : p.link page' (p.link page t) = p.link page' t :=
  link_congr (p.without_link page t) page'

/-- The values of a paging parameter of a link. -/
theorem values_link {name : String} (h : name ∈ p.names.toList) :
    (p.link page t).values name = Target.valuesIn (p.pairs (p.codec.encode page (p.identity t))) name := by
  have gone := t.values_without_of_mem h
  rw [Target.values_eq] at gone
  rw [link_eq, Target.values_eq, Target.valuesIn_append, gone, List.nil_append]

/-- The first page value of a link is the token, even when other names are the same. -/
theorem first_page_link {token : String} (h : (p.codec.encode page (p.identity t)).token = some token) :
    (p.link page t).first p.names.page = some token := by
  rw [Target.first, values_link p page t List.mem_cons_self, pairs, h]
  show (Target.valuesIn ((p.names.page, token) :: _) _).head? = _
  rw [Target.valuesIn_cons_of_eq, List.head?_cons]

section Distinct

variable (distinct : p.names.toList.Nodup)

include distinct

theorem names_ne : p.names.page ≠ p.names.size ∧ p.names.page ≠ p.names.sort ∧ p.names.size ≠ p.names.sort := by
  simp only [ParameterNames.toList, List.nodup_cons, List.mem_cons, List.not_mem_nil, or_false, not_or] at distinct
  exact ⟨distinct.1.1, distinct.1.2, distinct.2.1⟩

variable (b : Bookmark)

theorem valuesIn_pairs_page : Target.valuesIn (p.pairs b) p.names.page = b.token.toList := by
  obtain ⟨hsize, hsort, -⟩ := p.names_ne distinct
  rw [pairs, Target.valuesIn_append, Target.valuesIn_cons_of_ne hsize.symm, Target.valuesIn_map_of_ne hsort.symm,
    List.append_nil]
  cases b.token with
  | none => rfl
  | some token => exact Target.valuesIn_cons_of_eq _ _ _

theorem valuesIn_pairs_size : Target.valuesIn (p.pairs b) p.names.size = [decimal b.size.toNat] := by
  obtain ⟨hpage, -, hsort⟩ := p.names_ne distinct
  rw [pairs, Target.valuesIn_append, Target.valuesIn_cons_of_eq, Target.valuesIn_map_of_ne hsort.symm]
  cases b.token with
  | none => rfl
  | some token => exact congrArg (· ++ _) (Target.valuesIn_cons_of_ne hpage _ _)

theorem valuesIn_pairs_sort : Target.valuesIn (p.pairs b) p.names.sort = Sorting.values b.sorting := by
  obtain ⟨-, hpage, hsize⟩ := p.names_ne distinct
  rw [pairs, Target.valuesIn_append, Target.valuesIn_cons_of_ne hsize, Target.valuesIn_map_of_eq]
  cases b.token with
  | none => rfl
  | some token => exact congrArg (· ++ _) (Target.valuesIn_cons_of_ne hpage _ _)

end Distinct

/-- A number that is lowered to the greatest size is a word. -/
theorem toNat_leastSize (n : Nat) :
    (UInt32.ofNat (min n p.maxSize.toNat)).toNat = min n p.maxSize.toNat := by
  have htop := p.maxSize.toNat_lt
  exact UInt32.toNat_ofNat_of_lt' (by show _ < 2 ^ 32; omega)

/-- A size is read back from its digits exactly when the pager allows it. -/
theorem readSize_decimal_iff {size : UInt32} :
    p.readSize (some (decimal size.toNat)) = .ok size ↔ 0 < size ∧ size ≤ p.maxSize := by
  have hlt := size.toNat_lt
  have small : size.toNat ≤ sizeLimit := by
    show size.toNat ≤ 2 ^ 63 - 1
    omega
  have least : min (size.toNat : Int).toNat p.maxSize.toNat = min size.toNat p.maxSize.toNat := by omega
  simp only [readSize, readInt_decimal small, least]
  constructor
  · intro h
    split at h
    · cases h
    rename_i hpos
    have hsize := congrArg UInt32.toNat (Except.ok.inj h)
    rw [toNat_leastSize] at hsize
    refine ⟨?_, ?_⟩
    · show 0 < size.toNat
      omega
    · show size.toNat ≤ p.maxSize.toNat
      omega
  · rintro ⟨hpos, hmax⟩
    have hpos : 0 < size.toNat := hpos
    have hmax : size.toNat ≤ p.maxSize.toNat := hmax
    rw [if_neg (by omega), Nat.min_eq_left hmax, UInt32.ofNat_toNat]

/-- A page that a link can carry: its size is one that the pager allows, and its keys are named. -/
structure Carries (p : Pager) (page : Page) : Prop where
  pos : 0 < page.size
  atMost : page.size ≤ p.maxSize
  named : ∀ key ∈ page.sorting, key.Named

section Reading

variable {p page t} (distinct : p.names.toList.Nodup) (hc : p.Carries page)
  (hsize : (p.codec.encode page (p.identity t)).size = page.size)
  (hsorting : (p.codec.encode page (p.identity t)).sorting = page.sorting)

include distinct hc hsize hsorting

/-- The bookmark of a link is the one that was written. -/
theorem bookmark_link : p.bookmark (p.link page t) = .ok (p.codec.encode page (p.identity t)) := by
  have hpage : (p.link page t).first p.names.page = (p.codec.encode page (p.identity t)).token := by
    rw [Target.first, values_link p page t List.mem_cons_self, valuesIn_pairs_page p distinct]
    cases (p.codec.encode page (p.identity t)).token with
    | none => rfl
    | some token => rfl
  have hread : p.readSize ((p.link page t).first p.names.size) = .ok page.size := by
    rw [Target.first, values_link p page t (List.mem_cons_of_mem _ List.mem_cons_self),
      valuesIn_pairs_size p distinct, hsize]
    exact p.readSize_decimal_iff.mpr ⟨hc.pos, hc.atMost⟩
  have hparse : Sorting.parse ((p.link page t).values p.names.sort) = .ok page.sorting := by
    rw [values_link p page t (List.mem_cons_of_mem _ (List.mem_cons_of_mem _ List.mem_cons_self)),
      valuesIn_pairs_sort p distinct, hsorting]
    exact Sorting.parse_values hc.named
  rw [bookmark, hread, hparse, hpage, ← hsize, ← hsorting]

/-- The page of a link is the one that was linked to. -/
theorem resolve_link (hreads : p.codec.ReadsBack page (p.identity t)) :
    (p.resolve (p.link page t)).value = .ok page := by
  rw [resolve, bookmark_link distinct hc hsize hsorting, identity_link]
  simp only
  rw [hreads]

end Reading

end Pager

end Pagemark
