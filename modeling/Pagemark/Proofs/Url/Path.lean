/-
  Pagemark.Proofs.Url.Path — resolved paths are resolved already.

  What a path is resolved to is a list of `PlainIn` segments: written characters only, none of
  the slashes of its kind, and no dot segments, since those were taken out on the way. Plain
  segments are written as themselves, come apart at their slashes and are walked one by one, so
  resolving such a path again gives the same path. `Plain` and `Resolved` say so of the web.

  A path is `Unmarked` when no question mark and no number sign in it could end it early.

  Proved: `forall_mem_walk` — what holds of the segments holds of those that are left;
  `resolved_resolve` — a path that is resolved is made of plain segments; `parse_of_resolved` —
  and such a path stays as it is; `unmarked_resolve` — no path that is resolved ends early.
-/

import Pagemark.Proofs.Text.Cut
import Pagemark.Proofs.Text.Percent
import Pagemark.Url.Reference

namespace Pagemark.Url

open Text

/-! ## Characters -/

/-- No character begins a query or a fragment. -/
def Unmarked (cs : List Char) : Prop := ∀ c ∈ cs, isTailMark c = false

theorem unmarked_iff {cs : List Char} : Unmarked cs ↔ cs.all (!isTailMark ·) = true := by
  simp [Unmarked]

instance (cs : List Char) : Decidable (Unmarked cs) := decidable_of_iff _ unmarked_iff.symm

theorem toNat_lt_of_isShown {c : Char} (h : isShown c = true) : c.toNat < 128 := by
  simp only [isShown, Bool.and_eq_true, decide_eq_true_eq] at h
  omega

theorem pathKeeps_of_isAlphanum {c : Char} (h : c.isAlphanum = true) : pathKeeps c = true :=
  ascii_forall (P := fun c => c.isAlphanum = true → pathKeeps c = true) (by decide) (toNat_lt_of_isAlphanum h) h

theorem isTailMark_of_isAlphanum {c : Char} (h : c.isAlphanum = true) : isTailMark c = false :=
  ascii_forall (P := fun c => c.isAlphanum = true → isTailMark c = false) (by decide) (toNat_lt_of_isAlphanum h) h

theorem isSlash_of_isAlphanum {c : Char} (h : c.isAlphanum = true) : Kind.web.isSlash c = false :=
  ascii_forall (P := fun c => c.isAlphanum = true → Kind.web.isSlash c = false) (by decide) (toNat_lt_of_isAlphanum h) h

/-- The slash is a slash everywhere. -/
theorem Kind.isSlash_slash (kind : Kind) : kind.isSlash '/' = true := by
  cases kind with
  | web => rfl
  | file => rfl
  | other => rfl

/-- No kind has a slash that the web does not have. -/
theorem Kind.isSlash_of_web (kind : Kind) {c : Char} (h : Kind.web.isSlash c = false) : kind.isSlash c = false := by
  cases kind with
  | web => exact h
  | file => exact h
  | other => exact (Bool.or_eq_false_iff.mp h).1

/-- What is kept in a path counts, at the ends too, and marks no tail. -/
theorem pathKeeps_spec {c : Char} (h : pathKeeps c = true) :
    c.toNat < 0x80 ∧ isEdge c = false ∧ isTailMark c = false := by
  have hshown : isShown c = true := by
    simp only [pathKeeps, fragmentKeeps, Bool.and_eq_true] at h
    exact h.1.1
  exact ascii_forall
    (P := fun c => pathKeeps c = true → c.toNat < 0x80 ∧ isEdge c = false ∧ isTailMark c = false)
    (by decide) (toNat_lt_of_isShown hshown) h

/-- Tabs and line breaks are no characters that end a text either. -/
theorem isIgnored_of_isEdge {c : Char} (h : isEdge c = false) : isIgnored c = false := by
  rw [Bool.eq_false_iff]
  intro hc
  simp only [isIgnored, Bool.or_eq_true, beq_iff_eq] at hc
  rcases hc with (rfl | rfl) | rfl
  · exact absurd h (by decide)
  · exact absurd h (by decide)
  · exact absurd h (by decide)

/-- Where no character can end a text, all of them count. -/
theorem counted_of_shown {cs : List Char} (h : ∀ c ∈ cs, isEdge c = false) : counted cs = cs :=
  List.filter_eq_self.mpr fun c hc => by simp [isIgnored_of_isEdge (h c hc)]

theorem cleaned_of_shown {cs : List Char} (h : ∀ c ∈ cs, isEdge c = false) : cleaned cs = cs := by
  have whole : trimmed cs = cs := strip_of_stripped (stripped_of_forall h)
  rw [cleaned, whole, counted_of_shown h]

/-- An encoded text marks no tail unless it keeps a mark. -/
theorem unmarked_encode {keep : Char → Bool} {cs : List Char} (h : Unmarked cs) : Unmarked (Percent.encode keep cs) := by
  intro c hc
  rcases Percent.mem_encode hc with ⟨hc, -, -⟩ | rfl | hc
  · exact h c hc
  · rfl
  · exact isTailMark_of_isAlphanum hc

theorem unmarked_beforeTail (cs : List Char) : Unmarked (beforeTail cs) := by
  intro c hc
  simpa using List.all_eq_true.mp List.all_takeWhile c hc

namespace Path

/-! ## Segments -/

/-- Neither a single nor a double dot. -/
def Dotless (s : Segment) : Prop := isSingleDot s = false ∧ isDoubleDot s = false

/-- A segment as it stands in a resolved path. -/
structure PlainIn (kind : Kind) (s : Segment) : Prop where
  kept : ∀ c ∈ s, pathKeeps c = true ∧ kind.isSlash c = false
  dotless : Dotless s

abbrev Plain (s : Segment) : Prop := PlainIn .web s

theorem mem_written {cs : List Char} {c : Char} (h : c ∈ written cs) :
    pathKeeps c = true ∧ (c ∈ cs ∨ Kind.web.isSlash c = false) := by
  rcases Percent.mem_encode h with ⟨hc, hkeep, -⟩ | rfl | hc
  · exact ⟨hkeep, Or.inl hc⟩
  · exact ⟨by decide, Or.inr (by decide)⟩
  · exact ⟨pathKeeps_of_isAlphanum hc, Or.inr (isSlash_of_isAlphanum hc)⟩

theorem unmarked_written (cs : List Char) : Unmarked (written cs) := by
  intro c hc
  exact (pathKeeps_spec (mem_written hc).1).2.2

/-- Kept characters are written as themselves. -/
theorem written_of_plain {kind : Kind} {s : Segment} (h : PlainIn kind s) : written s = s :=
  Percent.encode_of_kept fun c hc => ⟨(pathKeeps_spec (h.kept c hc).1).1, (h.kept c hc).1⟩

/-! ## The walk -/

section Walk

variable {P : Segment → Prop}

theorem forall_mem_pop {stack : List Segment} (h : ∀ x ∈ stack, P x) : ∀ x ∈ pop stack, P x := by
  cases stack with
  | nil => exact h
  | cons top stack =>
    rw [pop]
    split
    · exact h
    · exact (List.forall_mem_cons.mp h).2

theorem forall_mem_push {stack : List Segment} {s : Segment} (hstack : ∀ x ∈ stack, P x) (hs : Dotless s → P s) :
    ∀ x ∈ push stack s, P x := by
  unfold push
  split
  · exact forall_mem_pop hstack
  rename_i hdouble
  split
  · exact hstack
  rename_i hsingle
  exact List.forall_mem_cons.mpr ⟨hs ⟨by simpa using hsingle, by simpa using hdouble⟩, hstack⟩

theorem forall_mem_close (empty : P []) {stack : List Segment} {s : Segment} (hstack : ∀ x ∈ stack, P x)
    (hs : Dotless s → P s) : ∀ x ∈ close stack s, P x := by
  unfold close
  split
  · exact List.forall_mem_cons.mpr ⟨empty, forall_mem_pop hstack⟩
  rename_i hdouble
  split
  · exact List.forall_mem_cons.mpr ⟨empty, hstack⟩
  rename_i hsingle
  exact List.forall_mem_cons.mpr ⟨hs ⟨by simpa using hsingle, by simpa using hdouble⟩, hstack⟩

/-- What holds of the stack, of the empty segment, and of all segments but dots, holds of every
segment that a walk leaves. -/
theorem forall_mem_walk (empty : P []) {stack segments : List Segment} (hstack : ∀ x ∈ stack, P x)
    (hsegments : ∀ s ∈ segments, Dotless s → P s) : ∀ x ∈ walk stack segments, P x := by
  fun_induction walk stack segments with
  | case1 => exact hstack
  | case2 stack last => exact forall_mem_close empty hstack (hsegments last List.mem_cons_self)
  | case3 stack s more _ ih =>
    obtain ⟨hs, hmore⟩ := List.forall_mem_cons.mp hsegments
    exact ih (forall_mem_push hstack hs) hmore

end Walk

theorem close_ne_nil (stack : List Segment) (s : Segment) : close stack s ≠ [] := by
  unfold close
  split
  · exact List.cons_ne_nil _ _
  split
  · exact List.cons_ne_nil _ _
  · exact List.cons_ne_nil _ _

theorem walk_ne_nil (stack : List Segment) {segments : List Segment} (h : segments ≠ []) : walk stack segments ≠ [] := by
  fun_induction walk stack segments with
  | case1 => exact absurd rfl h
  | case2 stack last => exact close_ne_nil stack last
  | case3 stack s more hmore ih => exact ih fun e => hmore e

/-- Without dots, all segments are left. -/
theorem walk_of_dotless {stack segments : List Segment} (h : ∀ s ∈ segments, Dotless s) :
    walk stack segments = segments.reverse ++ stack := by
  fun_induction walk stack segments with
  | case1 => rfl
  | case2 stack last =>
    obtain ⟨hsingle, hdouble⟩ := h last List.mem_cons_self
    simp [close, hsingle, hdouble]
  | case3 stack s more _ ih =>
    obtain ⟨⟨hsingle, hdouble⟩, hmore⟩ := List.forall_mem_cons.mp h
    rw [ih hmore]
    simp [push, hsingle, hdouble]

/-! ## Resolved paths -/

theorem segments_spec {kind : Kind} {cs : List Char} {s : Segment} (h : s ∈ segments kind cs) :
    ∃ piece ∈ pieces kind.isSlash cs, s = written piece := by
  obtain ⟨piece, hpiece, rfl⟩ := List.mem_map.mp h
  exact ⟨piece, hpiece, rfl⟩

theorem kept_of_mem_segments {kind : Kind} {cs : List Char} {s : Segment} (h : s ∈ segments kind cs) :
    ∀ c ∈ s, pathKeeps c = true ∧ kind.isSlash c = false := by
  obtain ⟨piece, hpiece, rfl⟩ := segments_spec h
  intro c hc
  obtain ⟨hkeep, hpart | hpart⟩ := mem_written hc
  · exact ⟨hkeep, (of_mem_pieces hpiece hpart).2⟩
  · exact ⟨hkeep, kind.isSlash_of_web hpart⟩

/-- A path of plain segments. -/
def ResolvedIn (kind : Kind) (path : String) : Prop :=
  ∃ segments, segments ≠ [] ∧ (∀ s ∈ segments, PlainIn kind s) ∧ path.toList = print segments

abbrev Resolved (path : String) : Prop := ResolvedIn .web path

/-- What is resolved on plain segments is a path of plain segments. -/
theorem resolved_resolve {kind : Kind} {stack : List Segment} (hstack : ∀ s ∈ stack, PlainIn kind s) (cs : List Char) :
    ResolvedIn kind (resolve kind stack cs) := by
  have some_piece : segments kind cs ≠ [] := by
    intro e
    exact pieces_ne_nil _ (List.map_eq_nil_iff.mp e)
  refine ⟨(walk stack (segments kind cs)).reverse, ?_, ?_, String.toList_ofList⟩
  · simpa using walk_ne_nil stack some_piece
  · intro s hs
    refine forall_mem_walk (P := PlainIn kind) ⟨fun _ h => absurd h List.not_mem_nil, rfl, rfl⟩ hstack ?_ s
      (List.mem_reverse.mp hs)
    exact fun s hs dotless => ⟨kept_of_mem_segments hs, dotless⟩

theorem parse_web (cs : List Char) : parse .web cs = resolve .web [] (afterSlash .web cs) := by
  unfold parse
  exact if_neg (by simp)

/-- A path of the web is made of plain segments. -/
theorem resolved_parse (cs : List Char) : Resolved (parse .web cs) := by
  rw [parse_web]
  exact resolved_resolve (by simp) _

section Resolved

variable {kind : Kind} {path : String} (h : ResolvedIn kind path)

include h

theorem rooted_of_resolved : ∃ cs, path.toList = '/' :: cs := by
  obtain ⟨segments, -, -, hpath⟩ := h
  exact ⟨_, hpath⟩

theorem mem_of_resolved {c : Char} (hc : c ∈ path.toList) :
    c = '/' ∨ (pathKeeps c = true ∧ kind.isSlash c = false) := by
  obtain ⟨segments, -, plain, hpath⟩ := h
  rw [hpath] at hc
  rcases List.mem_cons.mp hc with hc | hc
  · exact Or.inl hc
  rcases mem_joined hc with hc | ⟨s, hs, hc⟩
  · exact Or.inl hc
  · exact Or.inr ((plain s hs).kept c hc)

/-- The characters of a resolved path count, at the ends too. -/
theorem shown_of_resolved : ∀ c ∈ path.toList, isEdge c = false := by
  intro c hc
  rcases mem_of_resolved h hc with rfl | ⟨hkeep, -⟩
  · decide
  · exact (pathKeeps_spec hkeep).2.1

theorem unmarked_of_resolved : Unmarked path.toList := by
  intro c hc
  rcases mem_of_resolved h hc with rfl | ⟨hkeep, -⟩
  · decide
  · exact (pathKeeps_spec hkeep).2.2

/-- The segments of a resolved path are plain. -/
theorem plain_of_mem_stackOf : ∀ s ∈ stackOf path, PlainIn kind s := by
  obtain ⟨segments, hne, plain, hpath⟩ := h
  have apart : pieces (· == '/') (joined '/' segments) = segments := by
    refine pieces_joined (by decide) hne fun s hs c hc => ?_
    rw [beq_eq_false_iff_ne]
    rintro rfl
    exact absurd ((plain s hs).kept '/' hc).2 (by simp [kind.isSlash_slash])
  intro s hs
  rw [stackOf, hpath, List.mem_reverse] at hs
  change s ∈ pieces (· == '/') (joined '/' segments) at hs
  rw [apart] at hs
  exact plain s hs

/-- A resolved path is resolved to itself. -/
theorem resolve_of_resolved {cs : List Char} (hpath : path.toList = '/' :: cs) : resolve kind [] cs = path := by
  obtain ⟨segments, hne, plain, hprint⟩ := h
  obtain rfl : cs = joined '/' segments := (List.cons.inj (hpath.symm.trans hprint)).2
  have apart : Path.segments kind (joined '/' segments) = segments := by
    rw [Path.segments, pieces_joined kind.isSlash_slash hne fun s hs c hc => ((plain s hs).kept c hc).2]
    conv => rhs; rw [← List.map_id segments]
    exact List.map_congr_left fun s hs => written_of_plain (plain s hs)
  rw [resolve, apart, walk_of_dotless fun s hs => (plain s hs).dotless, List.append_nil, List.reverse_reverse, ← hprint,
    String.ofList_toList]

theorem parse_of_resolved : parse kind path.toList = path := by
  obtain ⟨cs, hcs⟩ := rooted_of_resolved h
  have hresolve := resolve_of_resolved h hcs
  rw [hcs, ← hresolve]
  simp [parse, afterSlash, kind.isSlash_slash]

end Resolved

/-- A path as it is written. Only the other schemes have one without segments, the empty one. -/
def WrittenIn (kind : Kind) (path : String) : Prop := (kind = .other ∧ path = "") ∨ ResolvedIn kind path

theorem writtenIn_parse (kind : Kind) (cs : List Char) : WrittenIn kind (parse kind cs) := by
  unfold parse
  split
  · rename_i hempty
    simp only [Bool.and_eq_true, beq_iff_eq] at hempty
    exact Or.inl ⟨hempty.2, rfl⟩
  · exact Or.inr (resolved_resolve (by simp) _)

section Written

variable {kind : Kind} {path : String} (h : WrittenIn kind path)

include h

/-- A written path stays as it is. -/
theorem parse_of_writtenIn : parse kind path.toList = path := by
  rcases h with ⟨rfl, rfl⟩ | h
  · rfl
  · exact parse_of_resolved h

theorem shown_of_writtenIn : ∀ c ∈ path.toList, isEdge c = false := by
  rcases h with ⟨-, rfl⟩ | h
  · intro c hc
    cases hc
  · exact shown_of_resolved h

theorem unmarked_of_writtenIn : Unmarked path.toList := by
  rcases h with ⟨-, rfl⟩ | h
  · decide
  · exact unmarked_of_resolved h

theorem head_of_writtenIn : ∀ c ∈ path.toList.head?, c = '/' := by
  rcases h with ⟨-, rfl⟩ | h
  · exact fun c hc => by cases hc
  · obtain ⟨cs, hcs⟩ := rooted_of_resolved h
    rw [hcs]
    exact fun c hc => by cases hc; rfl

end Written

theorem unmarked_joined {segments : List Segment} (h : ∀ s ∈ segments, Unmarked s) :
    Unmarked (joined '/' segments) := by
  intro c hc
  rcases mem_joined hc with rfl | ⟨s, hs, hc⟩
  · decide
  · exact h s hs c hc

/-- A resolved path marks no tail. -/
theorem unmarked_resolve (kind : Kind) {stack : List Segment} (hstack : ∀ s ∈ stack, Unmarked s) (cs : List Char) :
    Unmarked (resolve kind stack cs).toList := by
  rw [resolve, String.toList_ofList]
  refine List.forall_mem_cons.mpr ⟨by decide, unmarked_joined fun s hs => ?_⟩
  refine forall_mem_walk (P := Unmarked) (by decide) hstack ?_ s (List.mem_reverse.mp hs)
  intro s hs _
  obtain ⟨piece, -, rfl⟩ := segments_spec hs
  exact unmarked_written piece

end Path

end Pagemark.Url
