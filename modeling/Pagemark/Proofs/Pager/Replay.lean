/-
  Pagemark.Proofs.Pager.Replay — a page value is good for the request it was issued for.

  Whoever holds a link knows one checksum, and may put it, with any token behind it, into any
  other target. The target is read only if the checksum is the one of what it asks for, and
  then either it asks for just what the link was made for, or two different byte strings have
  been found whose digests begin with the same eight bytes. Nothing is assumed of the hash.

  Proved: `replay_or_collision` — a page value that is accepted is that of the link, in the
  request of the link, or shows a collision.
-/

import Pagemark.Proofs.Pager.Link
import Pagemark.Proofs.Seal.Message

namespace Pagemark

/-- Two byte strings that are not the same, and digests that begin with the same eight bytes. -/
structure Seal.Collision (lock : Seal.Lock) (a b : List UInt8) : Prop where
  differ : a ≠ b
  agree : (digest lock a).bytes.take 8 = (digest lock b).bytes.take 8

namespace Codec

/-- The standard stack reads a token when its checksum is the one of the request and a page number
stands behind it. -/
theorem standard_decode_ok {secret : Option String} {bookmark : Bookmark} {identity : Identity} {page : Page}
    {token : String} (ht : bookmark.token = some token)
    (h : ((Stack.standard secret).codec.decode bookmark identity).value = .ok page) :
    (Seal.parted token).1
        = Seal.checksum (secret.bind Seal.lockOf) identity bookmark.size bookmark.sorting (Seal.parted token).2 ∧
      readNumber (Seal.parted token).2 = .ok page.index ∧ page.size = bookmark.size ∧
      page.sorting = bookmark.sorting := by
  have sized := stack_decode identity (Stack.standard secret) h
  replace h : ((underSeal (secret.bind Seal.lockOf) pageNumber).decode bookmark identity).value = .ok page := h
  rw [underSeal_decode_of_token _ pageNumber bookmark identity ht rfl] at h
  split at h
  · rename_i hsum
    refine ⟨hsum, ?_, sized⟩
    replace h : (readNumber (Seal.parted token).2).map
        (fun index => Page.mk index bookmark.size bookmark.sorting) = .ok page := h
    cases hread : readNumber (Seal.parted token).2 with
    | error e => rw [hread] at h; cases h
    | ok index => rw [hread] at h; cases h; rfl
  split at h
  · cases h
  · cases h

end Codec

namespace Pager

/-- What the checksum of a token is taken of, when the token stands for the page of the target. -/
def hashed (p : Pager) (t : Target) (page : Page) (token : String) : List UInt8 :=
  Seal.message (p.identity t) page.size page.sorting (Seal.parted token).2

section Standard

variable {p : Pager} {secret : Option String} (hcodec : p.codec = (Codec.Stack.standard secret).codec)

include hcodec

/-- An accepted page value begins with the checksum of what it is accepted for. -/
theorem checksum_of_resolve {t : Target} {page : Page} {token : String} (ht : t.first p.names.page = some token)
    (h : (p.resolve t).value = .ok page) :
    (Seal.parted token).1 = Seal.checksumOf (secret.bind Seal.lockOf) (p.hashed t page token) ∧
      Codec.readNumber (Seal.parted token).2 = .ok page.index := by
  obtain ⟨b, hb, hdecode⟩ := p.resolve_ok t h
  obtain ⟨htoken, -, -⟩ := p.bookmark_ok t hb
  rw [hcodec] at hdecode
  obtain ⟨hsum, hread, hsize, hsorting⟩ := Codec.standard_decode_ok (htoken.trans ht) hdecode
  rw [hashed, hsize, hsorting]
  exact ⟨hsum, hread⟩

/-- The page value of a link is the checksum and the page number. -/
theorem token_link (page : Page) (t : Target) :
    ∃ token, (p.link page t).first p.names.page = some token ∧
      Seal.parted token = (Seal.checksumOf (secret.bind Seal.lockOf) (p.hashed t page token),
        some (Text.decimal page.index.toNat)) := by
  have written : (p.codec.encode page (p.identity t)).token
      = some (Seal.sealed (Seal.checksum (secret.bind Seal.lockOf) (p.identity t) page.size page.sorting
          (some (Text.decimal page.index.toNat))) (some (Text.decimal page.index.toNat))) := by
    rw [hcodec]
    rfl
  have parts := Seal.parted_sealed (Seal.dot_not_mem_checksumOf (secret.bind Seal.lockOf)
    (Seal.message (p.identity t) page.size page.sorting (some (Text.decimal page.index.toNat))))
    (some (Text.decimal page.index.toNat))
  refine ⟨_, p.first_page_link page t written, ?_⟩
  rw [hashed, Seal.checksum, parts]

/-- Let a link carry the page value `token`, and let another target carry a page value with the same
text before the first dot. If the other target is read, it asks for what the link was made for and
its page value is that of the link, or what was hashed for the two values differs and collides.
Lengths have to fit their eight bytes. -/
theorem replay_or_collision (page : Page) (t : Target) :
    ∃ token, (p.link page t).first p.names.page = some token ∧
      Seal.parted token = (Seal.checksumOf (secret.bind Seal.lockOf) (p.hashed t page token),
        some (Text.decimal page.index.toNat)) ∧
      ∀ (t' : Target) (token' : String) (page' : Page), t'.first p.names.page = some token' →
        (Text.cut '.' token'.toList).1 = (Text.cut '.' token.toList).1 → (p.resolve t').value = .ok page' →
        Seal.Fits (p.identity t) page.sorting (Seal.parted token).2 →
        Seal.Fits (p.identity t') page'.sorting (Seal.parted token').2 →
        (Seal.parted token').1 = Seal.checksumOf (secret.bind Seal.lockOf) (p.hashed t' page' token') ∧
          (p.identity t' = p.identity t ∧ page' = page ∧ token' = token ∨
            Seal.Collision (secret.bind Seal.lockOf) (p.hashed t page token) (p.hashed t' page' token')) := by
  obtain ⟨token, hlink, hparts⟩ := token_link hcodec page t
  refine ⟨token, hlink, hparts, fun t' token' page' htoken' hcut hresolve hfits hfits' => ?_⟩
  obtain ⟨hsum', hread'⟩ := checksum_of_resolve hcodec htoken' hresolve
  refine ⟨hsum', ?_⟩
  by_cases hsame : p.hashed t page token = p.hashed t' page' token'
  · -- The bytes tell all four parts, and checksum and token below make up the page value.
    have hbytes : p.hashed t page token ++ [] = p.hashed t' page' token' ++ [] := by rw [hsame]
    obtain ⟨⟨hidentity, hsize, hsorting, hinner⟩, -⟩ := Seal.message_delimiting hfits hfits' hbytes
    have hindex : page'.index = page.index := by
      rw [← hinner, hparts, Codec.readNumber_decimal] at hread'
      exact (Except.ok.inj hread').symm
    have htoken : token' = token := by
      rw [← Seal.sealed_parted token', ← Seal.sealed_parted token, ← hinner]
      exact congrArg (Seal.sealed · _) hcut
    have hpage : page' = page := by
      cases page
      cases page'
      rw [Page.mk.injEq]
      exact ⟨hindex, hsize.symm, hsorting.symm⟩
    exact Or.inl ⟨hidentity.symm, hpage, htoken⟩
  · have hagree : Seal.checksumOf (secret.bind Seal.lockOf) (p.hashed t page token)
        = Seal.checksumOf (secret.bind Seal.lockOf) (p.hashed t' page' token') :=
      (congrArg Prod.fst hparts).symm.trans (hcut.symm.trans hsum')
    exact Or.inr ⟨hsame, Seal.digest_agrees_of_checksum_eq hagree⟩

end Standard

/-- The page value of a link in the same request with its parameters in another order. -/
theorem replay_or_collision_reordered :
    let page : Page := ⟨3, 20, [⟨"price", .descending⟩]⟩
    let t : Target := ⟨"/items", [("colour", "red"), ("brand", "x.y")]⟩
    let t' : Target := standard.link page ⟨"/items", [("brand", "x.y"), ("colour", "red")]⟩
    ∃ token, (standard.link page t).first "page" = some token ∧ t'.first "page" = some token ∧
      (standard.resolve t').value = .ok page ∧
      Seal.Fits (standard.identity t) page.sorting (Seal.parted token).2 ∧
      Seal.Fits (standard.identity t') page.sorting (Seal.parted token).2 ∧
      (standard.identity t' = standard.identity t ∨
        Seal.Collision none (standard.hashed t page token) (standard.hashed t' page token)) := by
  intro page t t'
  obtain ⟨token, hlink, hparts, accepted⟩ := replay_or_collision
    (show standard.codec = (Codec.Stack.standard none).codec from rfl) page t
  have hsame : standard.identity ⟨"/items", [("brand", "x.y"), ("colour", "red")]⟩ = standard.identity t := by decide
  have hvalues : t'.values standard.names.page = (standard.link page t).values standard.names.page := by
    rw [values_link standard page t List.mem_cons_self, ← hsame]
    exact values_link standard page _ List.mem_cons_self
  have hlink' : t'.first standard.names.page = some token := by
    rw [Target.first, hvalues]
    exact hlink
  have hcarries : standard.Carries page := ⟨by decide, by decide, by decide⟩
  have hresolve : (standard.resolve t').value = .ok page :=
    resolve_link (by decide) hcarries rfl rfl (Codec.stack_readsBack page _ (Codec.Stack.standard none))
  have hfits : Seal.Fits (standard.identity t) page.sorting (Seal.parted token).2 := by
    rw [hparts]
    show Seal.Fits (standard.identity t) page.sorting (some (Text.decimal 3))
    decide
  have hfits' : Seal.Fits (standard.identity t') page.sorting (Seal.parted token).2 := by
    rw [show standard.identity t' = standard.identity t from (identity_link standard page _).trans hsame]
    exact hfits
  refine ⟨token, hlink, hlink', hresolve, hfits, hfits', ?_⟩
  rcases (accepted t' token page hlink' rfl hresolve hfits hfits').2 with h | h
  · exact Or.inl h.1
  · exact Or.inr h

end Pager

end Pagemark
