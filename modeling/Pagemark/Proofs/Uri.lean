/-
  Pagemark.Proofs.Uri — targets read as text, with a URI and with a URL.

  Three readings take a text apart at its question marks and number signs, each in its own way.
  All of them end the path at the first mark of either kind (`beforeTail`), and the query at the
  first number sign behind it (`queryOf`). A URL escapes both once more, which is undone when the
  path is resolved and the pairs are read.

  Proved: `Target.parse_eq`, `Uri.readTarget_eq`, `Url.query_finish` — the three readings by these
  parts; `Uri.parse_of_rooted` and `Uri.ofUri_of_readTarget` — a text that begins with a slash, as
  a URI; `Target.ofUrl_finish` — as what follows the authority of a URL.
-/

import Pagemark.Proofs.Target
import Pagemark.Proofs.Url.Authority

namespace Pagemark

open Text

/-! ## Path and query of a text -/

namespace Url

/-- The query, if there is one, without its mark. -/
def queryOf (cs : List Char) : Option (List Char) :=
  match tailOf cs with
  | '?' :: rest => some (cut '#' rest).1
  | _ => none

theorem queryOf_cons_of_not {c : Char} (h : isTailMark c = false) (cs : List Char) : queryOf (c :: cs) = queryOf cs := by
  have htail : tailOf (c :: cs) = tailOf cs := List.dropWhile_cons_of_pos (by simp [h])
  rw [queryOf, queryOf, htail]

/-- The fragment is cut off first, then the query. -/
theorem cut_tail (cs : List Char) : cut '?' (cut '#' cs).1 = (beforeTail cs, queryOf cs) := by
  induction cs with
  | nil => rfl
  | cons c cs ih =>
    by_cases hhash : c = '#'
    · subst hhash
      rfl
    by_cases hmark : c = '?'
    · subst hmark
      simp [cut, beforeTail, queryOf, tailOf, isTailMark]
    · have hnone : isTailMark c = false := by simp [isTailMark, hhash, hmark]
      have hbefore : beforeTail (c :: cs) = c :: beforeTail cs := List.takeWhile_cons_of_pos (by simp [hnone])
      rw [queryOf_cons_of_not hnone, hbefore]
      simp [cut, hhash, hmark, ih]

theorem query_finish (scheme : String) (authority : Option Authority) (path : String) (cs : List Char) :
    (finish scheme authority path cs).query = (queryOf cs).map (escaped (queryKeeps (.ofScheme scheme))) := by
  show (readTail (.ofScheme scheme) (tailOf cs)).1 = _
  unfold readTail queryOf
  split
  · rename_i htail
    rw [htail]
    rfl
  · rename_i htail
    rw [htail]
    rfl
  · rename_i hmark _
    split
    · rename_i rest htail
      exact absurd htail (hmark rest)
    · rfl

/-- Nothing that a query means is escaped. -/
theorem keepsMarks_query (kind : Kind) : Form.KeepsMarks (queryKeeps kind) where
  marks := by
    cases kind with
    | web => exact List.all_eq_true.mp (by decide)
    | file => exact List.all_eq_true.mp (by decide)
    | other => exact List.all_eq_true.mp (by decide)
  alphanum := (keeps_query kind).alphanum

end Url

namespace Target

/-- The target of a path and a query as they are written. -/
def ofParts (path : List Char) (query : Option (List Char)) : Target :=
  ⟨normalPath (.ofList path), (query.map Form.parse).getD []⟩

theorem path_ofParts (path : List Char) (query : Option (List Char)) :
    (ofParts path query).path = normalPath (.ofList path) := rfl

theorem parse_eq (s : String) : parse s = ofParts (Url.beforeTail s.toList) (Url.queryOf s.toList) := by
  unfold parse
  simp only [Url.cut_tail]
  rfl

/-- A path that begins with a slash and shows all its characters is resolved as a path of the web. -/
theorem normalPath_of_rooted {path : List Char} (rooted : ['/'] <+: path) (marks : Url.Unmarked path)
    (shown : ∀ c ∈ path, Url.isEdge c = false) : normalPath (.ofList path) = Url.Path.parse .web path := by
  obtain ⟨cs, hcs⟩ := rooted
  have hpath : (String.ofList path).toList = '/' :: cs := by
    rw [String.toList_ofList, ← hcs]
    rfl
  rw [normalPath_of_slash hpath (by rwa [String.toList_ofList]), String.toList_ofList,
    Url.cleaned_of_shown shown]

theorem rooted_beforeTail {cs : List Char} (rooted : ['/'] <+: cs) : ['/'] <+: Url.beforeTail cs := by
  obtain ⟨rest, rfl⟩ := rooted
  exact ⟨Url.beforeTail rest, rfl⟩

/-- The target of a text that begins with a slash has a path that does. -/
theorem rooted_parse {s : String} (rooted : ['/'] <+: s.toList) : ['/'] <+: (parse s).path.toList := by
  rw [parse_eq, path_ofParts]
  refine rooted_normalPath ?_ ?_
  · rw [String.toList_ofList]
    exact Url.unmarked_beforeTail _
  · rw [String.toList_ofList]
    exact rooted_beforeTail rooted

/-- The text behind the authority of a URL is read as it is on its own. -/
theorem ofUrl_finish (scheme : String) (a : Url.Authority) (hkind : Url.Kind.ofScheme scheme = .web) {cs : List Char}
    (rooted : ['/'] <+: cs) (shown : ∀ c ∈ cs, Url.isEdge c = false) :
    ofUrl (Url.finish scheme (some a) (Url.Path.parse .web (Url.beforeTail cs)) cs)
      = ofParts (Url.beforeTail cs) (Url.queryOf cs) := by
  have hshown : ∀ c ∈ Url.beforeTail cs, Url.isEdge c = false := fun c hc =>
    shown c ((List.takeWhile_prefix _).subset hc)
  have hpath : normalPath (Url.Path.parse .web (Url.beforeTail cs)) = normalPath (.ofList (Url.beforeTail cs)) := by
    rw [normalPath_of_resolved (Url.Path.resolved_parse _),
      normalPath_of_rooted (rooted_beforeTail rooted) (Url.unmarked_beforeTail cs) hshown]
  have hquery : ∀ query : Option (List Char),
      Form.parse ((query.map (Url.escaped (Url.queryKeeps .web))).getD "").toList
        = (query.map Form.parse).getD [] := by
    intro query
    cases query with
    | none => rfl
    | some q =>
      simp only [Option.map_some, Option.getD_some, Url.escaped, String.toList_ofList]
      exact Form.parse_escaped (Url.keepsMarks_query .web) q
  show Target.mk (normalPath (Url.Path.parse .web _)) (Form.parse ((Url.finish scheme (some a) _ cs).query.getD "").toList) = _
  rw [hpath, Url.query_finish, hkind, hquery]
  rfl

end Target

namespace Uri

/-! ## URIs -/

theorem readTarget_eq (cs : List Char) : readTarget cs =
    if !(Url.beforeTail cs).all isPathCharacter then .error .invalidCharacter
    else if !((Url.queryOf cs).getD []).all isQueryCharacter then .error .invalidCharacter
    else .ok ⟨if (Url.beforeTail cs).isEmpty then "/" else .ofList (Url.beforeTail cs),
      (Url.queryOf cs).map .ofList⟩ := by
  have mark : (fun c : Char => c != '?' && c != '#') = fun c => !Url.isTailMark c := by
    funext c
    simp [Url.isTailMark, bne]
  have query : (match Url.tailOf cs with
      | '?' :: rest => some (rest.takeWhile (· != '#'))
      | _ => none) = Url.queryOf cs := by
    unfold Url.queryOf
    split
    · rw [cut_fst_eq_takeWhile]
    · rfl
  unfold readTarget
  simp only [mark]
  rw [← query]
  rfl

/-- What is read of a URI that begins with a slash is what the text is read as. -/
theorem ofUri_of_readTarget {cs : List Char} (rooted : ['/'] <+: cs) {u : Uri} (h : readTarget cs = .ok u) :
    Target.ofUri u = Target.ofParts (Url.beforeTail cs) (Url.queryOf cs) := by
  have hfilled : (Url.beforeTail cs).isEmpty = false := by
    obtain ⟨rest, hrest⟩ := Target.rooted_beforeTail rooted
    rw [← hrest]
    rfl
  have hquery : ∀ query : Option (List Char),
      ((query.map String.ofList).map fun q => Form.parse q.toList) = query.map Form.parse := by
    intro query
    cases query with
    | none => rfl
    | some q => simp
  rw [readTarget_eq, hfilled] at h
  split at h
  · cases h
  split at h
  · cases h
  · cases h
    simp only [Target.ofUri, hquery]
    rfl

/-- A text that begins with a slash is read as a path and a query, unless it is too long. -/
theorem parse_of_rooted {s : String} (rooted : ['/'] <+: s.toList) :
    parse s = if maxLength < s.utf8ByteSize then .error .tooLong else readTarget s.toList := by
  obtain ⟨cs, hcs⟩ := rooted
  unfold parse
  rw [← hcs]
  rfl

end Uri

end Pagemark
