/-
  Pagemark.Proofs.Url.Join — rooted links joined to a base of the web.

  A link that begins with one slash replaces path and query of the base and leaves its place
  alone. One that begins with two slashes names a place of its own: the authority is taken out of
  the path, which only gets shorter by it, because the authority is not empty and resolving never
  adds to a path (`length_parse_le`). So the path that was written is not the path that is read.

  Proved: `join_of_one_slash` — the place of the base, and path and query of the link;
  `path_ne_of_two_slashes` — never the path of the link.
-/

import Pagemark.Proofs.Url.Text

namespace Pagemark.Url

open Text

/-! ## Lengths of paths -/

namespace Path

/-- How many characters segments take, each with the slash in front of it. -/
def size : List Segment → Nat
  | [] => 0
  | s :: more => s.length + 1 + size more

theorem length_print {segments : List Segment} (hne : segments ≠ []) : (print segments).length = size segments := by
  have hjoined : ∀ s segments, (joined '/' (s :: segments)).length + 1 = size (s :: segments) := by
    intro s segments
    induction segments generalizing s with
    | nil => simp [joined, size]
    | cons next more ih =>
      have ih := ih next
      simp only [size, joined, List.length_append, List.length_cons] at ih ⊢
      omega
  obtain ⟨s, more, rfl⟩ := List.exists_cons_of_ne_nil hne
  exact hjoined s more

theorem size_pop_le (stack : List Segment) : size (pop stack) ≤ size stack := by
  cases stack with
  | nil => exact Nat.le_refl _
  | cons s stack =>
    rw [pop]
    split
    · exact Nat.le_refl _
    · simp [size]

theorem size_push_le (stack : List Segment) (s : Segment) : size (push stack s) ≤ size stack + (s.length + 1) := by
  have hpop := size_pop_le stack
  unfold push
  split
  · omega
  split
  · omega
  · simp [size]
    omega

theorem size_close_le (stack : List Segment) (s : Segment) : size (close stack s) ≤ size stack + (s.length + 1) := by
  have hpop := size_pop_le stack
  have hempty : ∀ stack : List Segment, size ([] :: stack) = size stack + 1 := fun stack => by simp [size]; omega
  unfold close
  split
  · rw [hempty]
    omega
  split
  · rw [hempty]
    omega
  · simp [size]
    omega

/-- Dots take away more than they leave. -/
theorem size_walk_le (stack segments : List Segment) : size (walk stack segments) ≤ size stack + size segments := by
  fun_induction walk stack segments with
  | case1 stack => exact Nat.le_refl _
  | case2 stack last => simpa [size] using size_close_le stack last
  | case3 stack s more _ ih =>
    have hpush := size_push_le stack s
    have hcons : size (s :: more) = s.length + 1 + size more := by simp [size]
    omega

theorem size_append (front more : List Segment) : size (front ++ more) = size front + size more := by
  induction front with
  | nil => simp [size]
  | cons s front ih =>
    rw [List.cons_append, size, size, ih]
    omega

theorem size_reverse (segments : List Segment) : size segments.reverse = size segments := by
  induction segments with
  | nil => rfl
  | cons s more ih =>
    rw [List.reverse_cons, size_append, ih]
    simp only [size]
    omega

theorem size_pieces (p : Char → Bool) (cs : List Char) : size (pieces p cs) = cs.length + 1 := by
  induction cs with
  | nil => rfl
  | cons c cs ih =>
    by_cases hc : p c = true
    · rw [pieces_cons_of_pos hc]
      simp only [size, List.length_nil, List.length_cons] at ih ⊢
      omega
    · rw [pieces_cons_of_neg (by simpa using hc)]
      simp only [size, pieces, List.length_cons] at ih ⊢
      omega

/-- Where nothing has to be escaped, resolving does not make a path longer, but for the slash that it
may lack. -/
theorem length_parse_le {cs : List Char} (h : ∀ c ∈ cs, c = '/' ∨ pathKeeps c = true) :
    (parse .web cs).toList.length ≤ cs.length + 1 := by
  have hafter : afterSlash .web cs <:+ cs := by
    unfold afterSlash
    split
    · exact List.suffix_rfl
    · split
      · exact List.suffix_cons _ _
      · exact List.suffix_rfl
  have hsegments : segments .web (afterSlash .web cs) = pieces Kind.web.isSlash (afterSlash .web cs) := by
    conv => rhs; rw [← List.map_id (pieces _ _)]
    refine List.map_congr_left fun piece hpiece => Percent.encode_of_kept fun c hc => ?_
    obtain ⟨hmem, hslash⟩ := of_mem_pieces hpiece hc
    rcases h c (hafter.subset hmem) with rfl | hkeep
    · exact absurd hslash (by decide)
    · exact ⟨(pathKeeps_spec hkeep).1, hkeep⟩
  have hne : (walk [] (segments .web (afterSlash .web cs))).reverse ≠ [] := by
    rw [hsegments]
    simpa using walk_ne_nil [] (pieces_ne_nil _)
  rw [parse_web, resolve, String.toList_ofList, length_print hne, size_reverse, hsegments]
  calc size (walk [] (pieces Kind.web.isSlash (afterSlash .web cs)))
      ≤ size [] + size (pieces Kind.web.isSlash (afterSlash .web cs)) := size_walk_le _ _
    _ = (afterSlash .web cs).length + 1 := by rw [size_pieces]; simp [size]
    _ ≤ cs.length + 1 := Nat.succ_le_succ hafter.length_le

end Path

/-! ## What an authority takes from a text -/

/-- The rest of a text behind something that holds no mark. -/
def Behind (cs rest : List Char) : Prop := ∃ front, Unmarked front ∧ cs = front ++ rest

theorem Behind.refl (cs : List Char) : Behind cs cs := ⟨[], by decide, rfl⟩

theorem beforeTail_append {front : List Char} (h : Unmarked front) (rest : List Char) :
    beforeTail (front ++ rest) = front ++ beforeTail rest :=
  List.takeWhile_append_of_pos fun c hc => by simp [h c hc]

theorem Behind.suffix {cs rest : List Char} (h : Behind cs rest) : beforeTail rest <:+ beforeTail cs := by
  obtain ⟨front, hfront, rfl⟩ := h
  rw [beforeTail_append hfront]
  exact List.suffix_append _ _

theorem behind_of_readUser {cs rest : List Char} {user : String × Option String}
    (h : readUser .web cs = .ok (user, rest)) : Behind cs rest := by
  unfold readUser at h
  extract_lets inAuthority at h
  have hspan : cs.takeWhile inAuthority ++ cs.dropWhile inAuthority = cs := List.takeWhile_append_dropWhile
  have hmarks : Unmarked (cs.takeWhile inAuthority) := by
    intro c hc
    have hin := List.all_eq_true.mp List.all_takeWhile c hc
    simp only [inAuthority, Bool.not_eq_true', Bool.or_eq_false_iff] at hin
    exact hin.2
  split at h
  · cases h
    exact Behind.refl cs
  · split at h
    · rename_i hempty
      cases h
      refine ⟨cs.takeWhile inAuthority, hmarks, ?_⟩
      rw [List.isEmpty_iff.mp hempty] at hspan
      exact hspan.symm
    · cases h
  · rename_i before host _ hcut
    cases h
    have hparts := cutLast_eq_some hcut
    refine ⟨before ++ ['@'], fun c hc => hmarks c ?_, ?_⟩
    · rw [hparts]
      simp only [List.mem_append, List.mem_cons, List.not_mem_nil, or_false] at hc ⊢
      rcases hc with hc | hc
      · exact Or.inl hc
      · exact Or.inr (Or.inl hc)
    · calc cs = cs.takeWhile inAuthority ++ cs.dropWhile inAuthority := hspan.symm
        _ = before ++ ['@'] ++ (host ++ cs.dropWhile inAuthority) := by rw [hparts]; simp

theorem behind_of_cutHost (inside : Bool) (cs : List Char) :
    Unmarked (cutHost .web inside cs).1 ∧ cs = (cutHost .web inside cs).1 ++ (cutHost .web inside cs).2 := by
  fun_induction cutHost .web inside cs with
  | case1 => exact ⟨fun _ hc => absurd hc List.not_mem_nil, rfl⟩
  | case2 => exact ⟨fun _ hc => absurd hc List.not_mem_nil, rfl⟩
  | case3 inside c cs hgoes inside' ih =>
    simp only [Bool.or_eq_true, not_or, Bool.not_eq_true] at hgoes
    exact ⟨List.forall_mem_cons.mpr ⟨hgoes.2, ih.1⟩, congrArg (c :: ·) ih.2⟩

theorem behind_of_readPort {value port : Option Nat} {cs rest : List Char} (h : readPort value cs = .ok (port, rest)) :
    Behind cs rest := by
  fun_induction readPort value cs with
  | case1 =>
    cases h
    exact Behind.refl _
  | case2 value c cs d hd next hle ih =>
    obtain ⟨front, hfront, rfl⟩ := ih h
    have hc := isTailMark_of_isAlphanum (isAlphanum_of_isDigit (isDigit_of_digit? hd))
    exact ⟨c :: front, List.forall_mem_cons.mpr ⟨hc, hfront⟩, rfl⟩
  | case3 => cases h
  | case4 =>
    cases h
    exact Behind.refl _
  | case5 => cases h

theorem behind_of_readPortBehind {cs rest : List Char} {port : Option Nat}
    (h : readPortBehind cs = .ok (port, rest)) : Behind cs rest := by
  unfold readPortBehind at h
  split at h
  · obtain ⟨front, hfront, rfl⟩ := behind_of_readPort h
    exact ⟨':' :: front, List.forall_mem_cons.mpr ⟨by decide, hfront⟩, rfl⟩
  · cases h
    exact Behind.refl _

/-- An authority takes something away from what stands before the tail. -/
theorem length_readAuthority [Idna] {scheme : String} (hkind : Kind.ofScheme scheme = .web) {cs rest : List Char}
    {a : Authority} (h : readAuthority scheme cs = .ok (a, rest)) :
    beforeTail rest <:+ beforeTail cs ∧ (beforeTail rest).length < (beforeTail cs).length := by
  obtain ⟨behind, given, parts, hfilled⟩ := parts_of_readAuthority h
  have hne := hfilled hkind
  have huser := parts.user
  have hport := parts.behindHost
  rw [hkind] at huser hport
  obtain ⟨hmarks, hcut⟩ := behind_of_cutHost false behind
  have hrest := (behind_of_readPortBehind hport).suffix
  have hbehind := (behind_of_readUser huser).suffix
  have hhost : beforeTail behind = (cutHost .web false behind).1 ++ beforeTail (cutHost .web false behind).2 := by
    conv => lhs; rw [hcut]
    exact beforeTail_append hmarks _
  have hpos := List.length_pos_iff.mpr hne
  have hlength := congrArg List.length hhost
  rw [List.length_append] at hlength
  refine ⟨?_, ?_⟩
  · refine hrest.trans (List.IsSuffix.trans ?_ hbehind)
    rw [hhost]
    exact List.suffix_append _ _
  · have := hrest.length_le
    have := hbehind.length_le
    omega

/-! ## Joins -/

/-- A rooted link as it is written: a resolved path and a query. -/
def linkText (path query : String) : String := path ++ "?" ++ query

theorem toList_linkText (path query : String) :
    (linkText path query).toList = path.toList ++ tailText (some query) none := by
  simp [linkText, tailText]

section Join

variable [Idna] {base : Url} (hbase : base.Written) {path query : String} (hpath : Path.Resolved path)
  (hquery : Kept (queryKeeps .web) query)

include hbase hpath hquery

/-- A rooted link has no scheme of its own. -/
theorem join_eq_continueBase : base.join (linkText path query) = continueBase base (linkText path query).toList := by
  obtain ⟨a, ha, -⟩ := hbase.authority
  obtain ⟨cs, hcs⟩ := Path.rooted_of_resolved hpath
  have hedge : ∀ c ∈ (linkText path query).toList, isEdge c = false := by
    rw [toList_linkText]
    intro c hc
    rcases List.mem_append.mp hc with hc | hc
    · exact Path.shown_of_resolved hpath c hc
    · exact shown_of_tailText (fun q hq => by cases hq; exact hquery) (fun _ hf => by cases hf) c hc
  have hcleaned : counted (trimmed (linkText path query).toList) = (linkText path query).toList :=
    cleaned_of_shown hedge
  have htext : (linkText path query).toList = '/' :: (cs ++ tailText (some query) none) := by
    rw [toList_linkText, hcs]
    rfl
  have hopaque := isOpaque_of_authority ha
  have hkind : base.kind = .web := hbase.web
  unfold join parse? readTrimmed
  rw [hcleaned, htext]
  simp [scheme?, hopaque, hkind]

theorem written_of_join {u : Url} (h : base.join (linkText path query) = .ok u) : u.Written := by
  rw [join_eq_continueBase hbase hpath hquery] at h
  exact written_continueBase hbase h

/-- One slash: the place of the base, the path and the query of the link. -/
theorem join_of_one_slash (hone : ¬ ['/', '/'] <+: path.toList) :
    base.join (linkText path query) = .ok ⟨base.scheme, base.authority, path, some query, none⟩ := by
  obtain ⟨cs, hcs⟩ := Path.rooted_of_resolved hpath
  have hin : ∀ c ∈ cs, c ∈ path.toList := fun c hc => by rw [hcs]; exact List.mem_cons_of_mem _ hc
  have hmarks : Unmarked cs := fun c hc => Path.unmarked_of_resolved hpath c (hin c hc)
  have htext : (linkText path query).toList = '/' :: (cs ++ tailText (some query) none) := by
    rw [toList_linkText, hcs]
    rfl
  -- What stands behind the slash is the query or begins a segment.
  obtain ⟨d, more, hrest, hd⟩ : ∃ d more,
      cs ++ tailText (some query) none = d :: more ∧ Kind.web.isSlash d = false := by
    cases cs with
    | nil => exact ⟨_, _, rfl, by decide⟩
    | cons d ds =>
      refine ⟨d, _, rfl, ?_⟩
      rcases Path.mem_of_resolved hpath (hin d List.mem_cons_self) with rfl | ⟨-, hslash⟩
      · exact absurd ⟨ds, hcs.symm⟩ hone
      · exact hslash
  have hkind : Kind.ofScheme base.scheme = .web := hbase.web
  have hfinish : finish base.scheme base.authority (Path.resolve base.kind [] (beforeTail (d :: more))) (d :: more)
      = ⟨base.scheme, base.authority, path, some query, none⟩ := by
    obtain ⟨hbefore, htail⟩ := span_tailText hmarks (some query) none
    unfold finish
    rw [← hrest, hbefore, htail, hkind, kind, hkind, Path.resolve_of_resolved hpath hcs,
      readTail_tailText (fun q hq => by cases hq; exact hquery) (fun _ hf => by cases hf)]
  rw [join_eq_continueBase hbase hpath hquery, htext, hrest, ← hfinish]
  have hslash : (d == '/' || d == '\\') = false := hd
  simp [continueBase, hslash]

/-- Two slashes: whatever is read has another path than the link. -/
theorem path_ne_of_two_slashes (htwo : ['/', '/'] <+: path.toList) {u : Url}
    (h : base.join (linkText path query) = .ok u) : u.path ≠ path := by
  obtain ⟨cs, hcs⟩ := htwo
  have hin : ∀ c ∈ cs, c ∈ path.toList := fun c hc => by rw [← hcs]; exact List.mem_append_right _ hc
  have htext : (linkText path query).toList = '/' :: '/' :: (cs ++ tailText (some query) none) := by
    rw [toList_linkText, ← hcs]
    rfl
  have hread : continueBase base ('/' :: '/' :: (cs ++ tailText (some query) none))
      = withAuthority base.scheme (cs ++ tailText (some query) none) := by
    simp [continueBase]
  rw [join_eq_continueBase hbase hpath hquery, htext, hread] at h
  unfold withAuthority at h
  obtain ⟨⟨a, rest⟩, hauthority, h⟩ := ok_of_bind h
  cases h
  obtain ⟨hsuffix, hshort⟩ := length_readAuthority hbase.web hauthority
  rw [(span_tailText (fun c hc => Path.unmarked_of_resolved hpath c (hin c hc)) (some query) none).1] at hsuffix hshort
  have hkept : ∀ c ∈ beforeTail rest, c = '/' ∨ pathKeeps c = true := by
    intro c hc
    rcases Path.mem_of_resolved hpath (hin c (hsuffix.subset hc)) with hc | ⟨hc, -⟩
    · exact Or.inl hc
    · exact Or.inr hc
  have hlength := Path.length_parse_le hkept
  intro e
  have hpath' : (Path.parse .web (beforeTail rest)).toList.length = cs.length + 2 := by
    have e : Path.parse (.ofScheme base.scheme) (beforeTail rest) = path := e
    rw [hbase.web] at e
    rw [e, ← hcs]
    rfl
  omega

end Join

end Pagemark.Url
