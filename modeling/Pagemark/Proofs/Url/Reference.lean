/-
  Pagemark.Proofs.Url.Reference — no path of a URL holds a query or a fragment.

  Every way of reading a URL takes the path from what stands before the first mark, or from the
  base, and writes it with escapes that make no marks. So a URL that is read, alone or against
  another one that was, has a path that ends where its text ends.

  Proved: `bounded_of_parse?` — for one reading, alone or against a base; `bounded_of_read` — for
  any number of readings, one against the other, with pairs replaced between them.
-/

import Pagemark.Proofs.Url.Path
import Pagemark.Proofs.Url.Query

namespace Pagemark

/-- A computation that succeeds has succeeded in its first step. -/
theorem ok_of_bind {ε α β : Type} {x : Except ε α} {f : α → Except ε β} {b : β} (h : (x >>= f) = .ok b) :
    ∃ a, x = .ok a ∧ f a = .ok b := by
  cases x with
  | error e => cases h
  | ok a => exact ⟨a, rfl, h⟩

/-- A computation that succeeds has not been thrown out at a guard. -/
theorem ok_of_guard {ε α β : Type} {c : Prop} [Decidable c] {e : ε} {f : α → Except ε β} {x : Except ε β} {b : β}
    (h : (if c then (throw e : Except ε α) >>= f else x) = .ok b) : ¬ c ∧ x = .ok b := by
  split at h
  · cases h
  · rename_i hc
    exact ⟨hc, h⟩

namespace Url

open Text

/-! ## Paths of files -/

namespace FilePath

open Url.Path

/-- Every segment so far is unmarked. -/
def Walk.Sound (w : Walk) : Prop := ∀ s ∈ w.stack, Unmarked s

/-- A way of adding a segment that keeps the segments unmarked. -/
def KeepsUnmarked (put : List Segment → Segment → List Segment) : Prop :=
  ∀ ⦃stack : List Segment⦄ ⦃s : Segment⦄, (∀ x ∈ stack, Unmarked x) → Unmarked s → ∀ x ∈ put stack s, Unmarked x

theorem keepsUnmarked_push : KeepsUnmarked push := fun _ _ hstack hs => forall_mem_push hstack fun _ => hs

theorem keepsUnmarked_close : KeepsUnmarked close := fun _ _ hstack hs => forall_mem_close (by decide) hstack fun _ => hs

theorem unmarked_of_broken? {cs : List Char} {drive rest : Segment} (h : broken? cs = some (drive, rest)) :
    Unmarked drive ∧ Unmarked rest := by
  unfold broken? at h
  split at h
  · split at h
    · simp only at h
      split at h
      · rename_i hletter
        cases h
        simp only [Bool.and_eq_true] at hletter
        refine ⟨?_, unmarked_written _⟩
        refine List.forall_mem_cons.mpr ⟨isTailMark_of_isAlphanum ?_, (by decide : Unmarked [':'])⟩
        rw [Char.isAlphanum, hletter.1.1, Bool.true_or]
      · cases h
    · cases h
  · cases h

theorem unmarked_spelled {s : Segment} (h : Unmarked s) : Unmarked (spelled s) := by
  intro c hc
  rcases List.mem_append.mp hc with hc | hc
  · exact h c (List.mem_of_mem_take hc)
  · rw [List.mem_singleton.mp hc]
    decide

section Put

variable {put : List Segment → Segment → List Segment} (hput : KeepsUnmarked put)

include hput

theorem sound_placeFirst (isDrive : Bool) (cs : List Char) : (placeFirst put isDrive cs).Sound := by
  unfold placeFirst
  simp only
  split
  · rename_i drive rest hbroken
    obtain ⟨hdrive, hrest⟩ := unmarked_of_broken? hbroken
    exact List.forall_mem_cons.mpr ⟨hrest, List.forall_mem_cons.mpr ⟨hdrive, by simp⟩⟩
  split
  · exact List.forall_mem_cons.mpr ⟨unmarked_spelled (unmarked_written _), by simp⟩
  · exact hput (by simp) (unmarked_written _)

theorem sound_place {w : Walk} (hw : w.Sound) (cs : List Char) : (w.place put cs).Sound := by
  unfold Walk.place
  split
  · exact sound_placeFirst hput w.isDrive cs
  · exact hput hw (unmarked_written _)

end Put

theorem sound_follow {w : Walk} (hw : w.Sound) (parts : List (List Char)) : (w.follow parts).Sound := by
  fun_induction Walk.follow w parts with
  | case1 => exact hw
  | case2 w last => exact sound_place keepsUnmarked_close hw last
  | case3 w cs more _ ih => exact ih (sound_place keepsUnmarked_push hw cs)

theorem sound_walk {stack : List Segment} (hstack : ∀ s ∈ stack, Unmarked s) (cs : List Char) : (walk stack cs).Sound :=
  sound_follow (w := ⟨stack, false⟩) hstack _

theorem unmarked_print {stack : List Segment} (hstack : ∀ s ∈ stack, Unmarked s) : Unmarked (print stack).toList := by
  rw [print, String.toList_ofList]
  refine List.forall_mem_cons.mpr ⟨by decide, fun c hc => ?_⟩
  exact unmarked_joined (fun s hs => hstack s (List.mem_reverse.mp hs)) c ((List.dropWhile_suffix _).subset hc)

theorem unmarked_resolve {stack : List Segment} (hstack : ∀ s ∈ stack, Unmarked s) (cs : List Char) :
    Unmarked (resolve stack cs).toList :=
  unmarked_print (sound_walk hstack cs)

theorem unmarked_continueSegment {last : Segment} {stack : List Segment} (hlast : Unmarked last)
    (hstack : ∀ s ∈ stack, Unmarked s) (cs : List Char) : Unmarked (continueSegment last stack cs).toList := by
  have hkept : ∀ s ∈ last :: stack, Unmarked s := List.forall_mem_cons.mpr ⟨hlast, hstack⟩
  unfold continueSegment
  split
  · exact unmarked_print hkept
  simp only
  refine unmarked_print (sound_follow ?_ _)
  split
  · exact hkept
  split
  · unfold Walk.Sound
    split
    · exact List.forall_mem_cons.mpr ⟨(by decide : Unmarked []), hkept⟩
    · exact hkept
  · refine List.forall_mem_cons.mpr ⟨fun c hc => ?_, hstack⟩
    rcases List.mem_append.mp hc with hc | hc
    · exact hlast c hc
    · exact unmarked_written _ c hc

theorem unmarked_of_mem_stackOf {path : String} (h : Unmarked path.toList) : ∀ s ∈ stackOf path, Unmarked s := by
  intro s hs c hc
  have hmem := (of_mem_pieces (List.mem_reverse.mp hs) hc).1
  exact h c (List.mem_of_mem_drop hmem)

theorem unmarked_join {path : String} (h : Unmarked path.toList) (cs : List Char) : Unmarked (join path cs).toList := by
  have hsegments := unmarked_of_mem_stackOf h
  unfold join
  split
  · exact unmarked_resolve (by simp) cs
  rename_i last stack hstack
  rw [hstack] at hsegments
  obtain ⟨hlast, hrest⟩ := List.forall_mem_cons.mp hsegments
  split
  · exact unmarked_resolve hrest cs
  split
  · exact unmarked_resolve (List.forall_mem_cons.mpr ⟨hlast, by simp⟩) cs
  · exact unmarked_continueSegment hlast hrest cs

theorem unmarked_of_drive? {path : String} (h : Unmarked path.toList) {drive : Segment} (hd : drive? path = some drive) :
    Unmarked drive := by
  have hlast := (Option.filter_eq_some_iff.mp hd).1
  exact unmarked_of_mem_stackOf h drive (List.mem_of_getLast? hlast)

end FilePath

/-! ## Other paths -/

theorem unmarked_parse (kind : Kind) (cs : List Char) : Unmarked (Path.parse kind cs).toList := by
  unfold Path.parse
  split
  · decide
  · exact Path.unmarked_resolve kind (by simp) _

theorem unmarked_directory {path : String} (h : Unmarked path.toList) : ∀ s ∈ Path.directory path, Unmarked s := by
  intro s hs
  exact FilePath.unmarked_of_mem_stackOf h s (List.mem_of_mem_drop hs)

/-! ## URLs -/

/-- The path holds no query and no fragment. -/
def Bounded (u : Url) : Prop := Unmarked u.path.toList

theorem bounded_finish (scheme : String) (authority : Option Authority) {path : String} (h : Unmarked path.toList)
    (cs : List Char) : (finish scheme authority path cs).Bounded := h

theorem bounded_fileUrl (host : Host) {path : String} (h : Unmarked path.toList) (cs : List Char) :
    (fileUrl host path cs).Bounded := h

/-- The path of a base, if there is one, holds no query and no fragment. -/
def BaseBounded (base : Option Url) : Prop := ∀ b ∈ base, b.Bounded

theorem baseBounded_filter {base : Option Url} (h : BaseBounded base) (keep : Url → Bool) :
    BaseBounded (base.filter keep) := by
  intro b hb
  exact h b (Option.filter_eq_some_iff.mp hb).1

section Files

variable {base : Option Url} (hbase : BaseBounded base)

include hbase

theorem bounded_readFileRoot (cs : List Char) : (readFileRoot base cs).Bounded := by
  unfold readFileRoot
  simp only
  split
  · exact bounded_fileUrl _ (FilePath.unmarked_resolve (by simp) _) _
  rename_i b hb
  have hb : b.Bounded := baseBounded_filter hbase _ b hb
  split
  · rename_i drive hdrive
    refine bounded_fileUrl _ (FilePath.unmarked_resolve (List.forall_mem_cons.mpr ⟨?_, by simp⟩) _) _
    exact FilePath.unmarked_of_drive? hb hdrive
  · exact bounded_fileUrl _ (FilePath.unmarked_resolve (by simp) _) _

theorem bounded_readFileRelative (cs : List Char) : (readFileRelative base cs).Bounded := by
  unfold readFileRelative
  cases base with
  | none => exact bounded_fileUrl _ (FilePath.unmarked_resolve (by simp) _) _
  | some b =>
    have hb : b.Bounded := hbase b rfl
    simp only
    split
    · exact hb
    · exact bounded_fileUrl _ hb _
    · exact hb
    split
    · exact bounded_fileUrl _ (FilePath.unmarked_resolve (by simp) _) _
    · exact bounded_fileUrl _ (FilePath.unmarked_join hb _) _

end Files

/-- Another query leaves the path bounded. -/
theorem bounded_withPairs {u : Url} (h : u.Bounded) (pairs : List (String × String)) : (u.withPairs pairs).Bounded := by
  show Unmarked u.unpaddedPath.toList
  exact fun c hc => h c ((prefix_unpaddedPath u).subset hc)

section

variable [Idna]

theorem bounded_withAuthority {scheme : String} {cs : List Char} {u : Url} (h : withAuthority scheme cs = .ok u) :
    u.Bounded := by
  unfold withAuthority at h
  obtain ⟨found, -, h⟩ := ok_of_bind h
  cases h
  exact bounded_finish _ _ (unmarked_parse _ _) _

theorem bounded_continueBase {base : Url} (hbase : base.Bounded) {cs : List Char} {u : Url}
    (h : continueBase base cs = .ok u) : u.Bounded := by
  unfold continueBase at h
  simp only at h
  split at h
  · cases h; exact hbase
  · cases h; exact bounded_finish _ _ hbase _
  · cases h; exact hbase
  split at h
  · split at h
    · split at h
      · exact bounded_withAuthority h
      · cases h; exact bounded_finish _ _ (Path.unmarked_resolve _ (by simp) _) _
    · cases h; exact bounded_finish _ _ (by decide) _
  · cases h; exact bounded_finish _ _ (Path.unmarked_resolve _ (unmarked_directory hbase) _) _

theorem bounded_readFileAuthority {cs : List Char} {u : Url} (h : readFileAuthority cs = .ok u) : u.Bounded := by
  unfold readFileAuthority at h
  obtain ⟨⟨host, rest⟩, -, h⟩ := ok_of_bind h
  simp only at h
  split at h
  · cases h; exact bounded_fileUrl _ (FilePath.unmarked_resolve (by simp) _) _
  · cases h; exact bounded_fileUrl _ (FilePath.unmarked_print (FilePath.sound_walk (by simp) _)) _

theorem bounded_readOther {scheme : String} {cs : List Char} {u : Url} (h : readOther scheme cs = .ok u) :
    u.Bounded := by
  unfold readOther at h
  split at h
  · exact bounded_withAuthority h
  · cases h; exact bounded_finish _ _ (unmarked_parse _ _) _
  · cases h
    refine bounded_finish _ _ ?_ _
    rw [escaped, String.toList_ofList]
    exact unmarked_encode (unmarked_beforeTail _)

theorem bounded_readFile {base : Option Url} (hbase : BaseBounded base) {cs : List Char} {u : Url}
    (h : readFile base cs = .ok u) : u.Bounded := by
  unfold readFile at h
  split at h
  · cases h; exact bounded_readFileRelative hbase _
  split at h
  · cases h; exact bounded_readFileRelative hbase _
  split at h
  · cases h; exact bounded_readFileRoot hbase _
  split at h
  · exact bounded_readFileAuthority h
  · cases h; exact bounded_readFileRoot hbase _

/-- A URL that is read has a path without a query and a fragment, if its base has. -/
theorem bounded_of_parse? {base : Option Url} (hbase : BaseBounded base) {s : String} {u : Url}
    (h : parse? base s = .ok u) : u.Bounded := by
  unfold parse? readTrimmed at h
  split at h
  · split at h
    · exact bounded_readFile (baseBounded_filter hbase _) h
    · exact bounded_readOther h
    · simp only at h
      split at h
      · rename_i b hb
        exact bounded_continueBase (baseBounded_filter hbase _ b hb) h
      · exact bounded_withAuthority h
  · split at h
    · cases h
    rename_i b
    have hb : b.Bounded := hbase b rfl
    split at h
    · cases h; exact hb
    split at h
    · cases h
    split at h
    · exact bounded_readFile hbase h
    · exact bounded_continueBase hb h

/-- URLs as they come about: read on their own, read against another one, or given other pairs. -/
inductive Read : Url → Prop
  | parse {s : String} {u : Url} (h : Url.parse s = .ok u) : Read u
  | join {base : Url} (hbase : Read base) {s : String} {u : Url} (h : base.join s = .ok u) : Read u
  | withPairs {u : Url} (hu : Read u) (pairs : List (String × String)) : Read (u.withPairs pairs)

/-- However a URL comes about, its path holds no query and no fragment. -/
theorem bounded_of_read {u : Url} (h : Read u) : u.Bounded := by
  induction h with
  | parse h =>
    have hbase : BaseBounded none := fun _ hb => by cases hb
    exact bounded_of_parse? hbase h
  | @join base _ _ _ h ih =>
    have hbase : BaseBounded (some base) := fun _ hb => by cases hb; exact ih
    exact bounded_of_parse? hbase h
  | withPairs _ pairs ih => exact bounded_withPairs ih pairs

/-- A text that begins with a slash is no URL on its own. -/
theorem parse_of_rooted {s : String} (rooted : ['/'] <+: s.toList) : parse s = .error .noBase := by
  obtain ⟨cs, hcs⟩ := rooted
  have htrimmed : (trimmed s.toList).head? = some '/' := by
    rw [← hcs]
    exact head_strip (by decide) cs
  obtain ⟨more, hmore⟩ := List.head?_eq_some_iff.mp htrimmed
  have hcounted : counted ('/' :: more) = '/' :: counted more := rfl
  unfold parse parse? readTrimmed
  rw [hmore, hcounted]
  rfl

end

end Url

end Pagemark
