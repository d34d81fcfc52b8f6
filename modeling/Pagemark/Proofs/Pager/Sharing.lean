/-
  Pagemark.Proofs.Pager.Sharing — what two requests must share to share a token.

  A token is bound to the identity of its request, and the identity is the path and the values of
  each name that is not left out of account. So the order in which names come is free and the order
  of the values of one name is not: pairs may change places as long as no two of one name do, and
  then every pager reads the same bookmark and the same page out of the target.

  The path is resolved when a target is made and once more when its identity is taken, which changes
  nothing (`Target.normalPath_idem`). So an identity can be built without a target, one value after
  another, and is the identity of the target that is built the same way.

  Proved: `normalPath_of_made` — however a target is made, its path is resolved; `bookmark_congr`,
  `resolve_congr` — what is read of a target is told from its values; `foldl_add_ofPath` — both ways
  of building agree; `same_identity_iff` — together.
-/

import Pagemark.Pager.Basic
import Pagemark.Proofs.Identity
import Pagemark.Proofs.Target

namespace Pagemark

/-! ## Targets as they are made -/

namespace Target

/-- How targets are made: of a text, a URI, a URL or a path, with any pairs added. -/
inductive Made : Target → Prop
  | parse (s : String) : Made (.parse s)
  | ofUri (uri : Uri) : Made (.ofUri uri)
  | ofUrl (url : Url) : Made (.ofUrl url)
  | ofPath (path : String) : Made (.ofPath path)
  | add {t : Target} (h : Made t) (name value : String) : Made (t.add name value)

theorem normalPath_of_made {t : Target} (h : t.Made) : normalPath t.path = t.path := by
  induction h with
  | parse s => exact normalPath_idem _
  | ofUri uri => exact normalPath_idem _
  | ofUrl url => exact normalPath_idem _
  | ofPath path => exact normalPath_idem _
  | add _ name value ih => exact ih

theorem foldl_add (t : Target) (pairs : List (String × String)) :
    pairs.foldl (fun t pair => t.add pair.1 pair.2) t = { t with query := t.query ++ pairs } := by
  induction pairs generalizing t with
  | nil => simp
  | cons pair pairs ih => rw [List.foldl_cons, ih]; simp [add]

end Target

namespace Identity

theorem foldl_add (i : Identity) (pairs : List (String × String)) :
    pairs.foldl (fun i pair => i.add pair.1 pair.2) i
      = { i with parameters := pairs.foldl (fun ps pair => ps.add pair.1 pair.2) i.parameters } := by
  induction pairs generalizing i with
  | nil => rfl
  | cons pair pairs ih => rw [List.foldl_cons, ih]; rfl

/-- An identity that is built of pairs is that of the target that is built of them. -/
theorem foldl_add_ofPath (path : String) (pairs : List (String × String)) :
    pairs.foldl (fun i pair => i.add pair.1 pair.2) (ofPath path)
      = (pairs.foldl (fun t pair => t.add pair.1 pair.2) (Target.ofPath path)).identity [] := by
  have hall : pairs.filter (fun pair => !([] : List String).contains pair.1) = pairs := by simp
  rw [foldl_add, Target.foldl_add]
  show Identity.mk (Target.normalPath path) (.ofPairs pairs)
    = Identity.mk (Target.normalPath (Target.normalPath path)) (.ofPairs (pairs.filter _))
  rw [Target.normalPath_idem, hall]

end Identity

/-! ## What is read of a target -/

namespace Pager

variable {p : Pager} {t t' : Target}

/-- A bookmark is read from the values of the three names. -/
theorem bookmark_congr (h : ∀ name ∈ p.names.toList, t.values name = t'.values name) :
    p.bookmark t = p.bookmark t' := by
  have page := h p.names.page List.mem_cons_self
  have size := h p.names.size (List.mem_cons_of_mem _ List.mem_cons_self)
  have sort := h p.names.sort (List.mem_cons_of_mem _ (List.mem_cons_of_mem _ List.mem_cons_self))
  simp only [bookmark, Target.first, page, size, sort]

/-- A page is read from the bookmark and the identity, and its events tell no more. -/
theorem resolve_congr (hbookmark : p.bookmark t = p.bookmark t') (hidentity : p.identity t = p.identity t') :
    p.resolve t = p.resolve t' := by
  unfold resolve
  rw [hbookmark, hidentity]

end Pager

/-! ## One identity -/

/-- Targets have one identity exactly when their paths agree and each name that counts has the same values
in the same order. Targets that agree on all values differ in the order of their pairs only, and every
pager reads the same out of them. Pairs that are added to the identity of a path make the identity of
the path with the pairs. -/
theorem same_identity_iff :
    (∀ {t t' : Target}, t.Made → t'.Made → ∀ excluded : List String,
      t.identity excluded = t'.identity excluded ↔
        t.path = t'.path ∧ ∀ name ∉ excluded, t.values name = t'.values name) ∧
    (∀ {t t' : Target}, t.path = t'.path → (∀ name, t.values name = t'.values name) →
      t.query.Perm t'.query ∧ (∀ excluded, t.identity excluded = t'.identity excluded) ∧
        ∀ p : Pager, p.bookmark t = p.bookmark t' ∧ p.resolve t = p.resolve t') ∧
    ∀ (path : String) (pairs : List (String × String)),
      pairs.foldl (fun i pair => i.add pair.1 pair.2) (Identity.ofPath path)
        = (pairs.foldl (fun t pair => t.add pair.1 pair.2) (Target.ofPath path)).identity [] := by
  refine ⟨?_, ?_, Identity.foldl_add_ofPath⟩
  · intro t t' made made' excluded
    rw [Target.identity_eq_iff, Target.normalPath_of_made made, Target.normalPath_of_made made']
  · intro t t' hpath hvalues
    have identities (excluded : List String) : t.identity excluded = t'.identity excluded :=
      Target.identity_eq_iff.mpr ⟨congrArg Target.normalPath hpath, fun name _ => hvalues name⟩
    refine ⟨Target.perm_of_values hvalues, identities, fun p => ?_⟩
    have bookmarks : p.bookmark t = p.bookmark t' := Pager.bookmark_congr fun name _ => hvalues name
    exact ⟨bookmarks, Pager.resolve_congr bookmarks (identities _)⟩

/-- A text whose pairs are mixed and escaped, and a path that the same pairs are added to in another order;
with the values of one name exchanged the identity is another. -/
theorem same_identity_of_mixed_pairs :
    let read := Target.parse "/a/../items?tag=%31&page=9&q=&tag=2#tag=3"
    let built := (((Target.ofPath "/./items").add "q" "").add "tag" "1").add "tag" "2"
    let exchanged := (((Target.ofPath "/items").add "tag" "2").add "tag" "1").add "q" ""
    read.Made ∧ built.Made ∧ exchanged.Made ∧ read.identity ["page"] = built.identity ["page"] ∧
      exchanged.identity ["page"] ≠ built.identity ["page"] := by
  intro read built exchanged
  have hread : read.Made := .parse _
  have hbuilt : built.Made := .add (.add (.add (.ofPath _) _ _) _ _) _ _
  have hexchanged : exchanged.Made := .add (.add (.add (.ofPath _) _ _) _ _) _ _
  have hquery : read = ⟨"/items", [("tag", "1"), ("page", "9"), ("q", ""), ("tag", "2")]⟩ := rfl
  have hpairs : built = ⟨"/items", [("q", ""), ("tag", "1"), ("tag", "2")]⟩ := rfl
  obtain ⟨iff, -, -⟩ := same_identity_iff
  refine ⟨hread, hbuilt, hexchanged, (iff hread hbuilt _).mpr ⟨?_, ?_⟩, fun h => ?_⟩
  · rw [hquery, hpairs]
  · intro name hname
    rw [hquery, hpairs]
    by_cases hq : name = "q"
    · subst hq; rfl
    by_cases htag : name = "tag"
    · subst htag; rfl
    · have hpage : name ≠ "page" := by simpa using hname
      simp [Target.values, Ne.symm hq, Ne.symm htag, Ne.symm hpage]
  · have htag := ((iff hexchanged hbuilt _).mp h).2 "tag" (by decide)
    revert htag
    decide

end Pagemark
